import Mathlib.Data.List.Forall2
import StoreClient.Proofs.Pack.Values

/-!
# Well-formed MessagePack

A `Datum` is what a MessagePack value says, and `Spells` relates it to all octets that say it: every
number and every size may be told in any of its widths, and a number that is not negative also in a
form with a sign. Of arrays, maps and extensions, no more may be open at once than a reader opens.

Such octets are read to their end and no further, whatever comes after them (`read_of_spells`), and
the document that is read shows the datum (`Shows`): it differs only in what it keeps of the widths.
So a reader can pass over it (`skip_of_shows`).
-/

namespace StoreClient

/-! ## Data -/

/-- What a MessagePack value says. -/
inductive Datum where
  | null
  | bool (b : Bool)
  | integer (i : Int)
  /-- A floating-point number of four or eight octets. -/
  | float (octets : Bytes)
  /-- A text that need not be UTF-8. -/
  | text (octets : Bytes)
  | binary (octets : Bytes)
  | array (items : List Datum)
  | map (entries : List (Datum × Datum))
  | extension (type : UInt8) (content : Bytes)

/-- The keys and values of a map in turn. -/
def Datum.inTurn (entries : List (Datum × Datum)) : List Datum :=
  entries.flatMap fun (key, value) => [key, value]

theorem Datum.length_inTurn (entries : List (Datum × Datum)) :
    (inTurn entries).length = 2 * entries.length := by
  induction entries with
  | nil => rfl
  | cons e entries ih =>
    rw [inTurn, List.flatMap_cons, List.length_append, ← inTurn, ih, List.length_cons]
    simp only [List.length_cons, List.length_nil]
    omega

/-! ## Octets -/

/-- The octets are a form with a sign of the number: one octet for the numbers from -32 on, or a
first octet and two's complement. -/
inductive Pack.TellsSigned : (i : Int) → (octets : Bytes) → Prop
  | within {n : Nat} (h : n < 32) : TellsSigned ((n : Int) - 32) [UInt8.ofNat (0xE0 + n)]
  | after {first : UInt8} {octets : Bytes}
      (h : (first, octets.length) ∈ [(0xD0, 1), (0xD1, 2), (0xD2, 4), (0xD3, 8)]) :
      TellsSigned (Bytes.toInt octets) (first :: octets)

open Pack (Layout)

/-- The octets say the datum, with no more than `depth` containers open at once. -/
def Datum.Spells : (depth : Nat) → Datum → (octets : Bytes) → Prop
  | _, null, bs => bs = [0xC0]
  | _, bool b, bs => bs = [if b then 0xC3 else 0xC2]
  | _, integer i, bs =>
    (∃ n : Nat, i = n ∧ Layout.natural.Tells n bs) ∨ Pack.TellsSigned i bs
  | _, float octets, bs =>
    octets.length = 4 ∧ bs = 0xCA :: octets ∨ octets.length = 8 ∧ bs = 0xCB :: octets
  | _, text octets, bs => ∃ header, Layout.text.Tells octets.length header ∧ bs = header ++ octets
  | _, binary octets, bs =>
    ∃ header, Layout.binary.Tells octets.length header ∧ bs = header ++ octets
  | 0, array _, _ => False
  | 0, map _, _ => False
  | 0, extension _ _, _ => False
  | depth + 1, array items, bs => ∃ header pieces, Layout.array.Tells items.length header ∧
    List.Forall₂ (Spells depth) items pieces ∧ bs = header ++ pieces.flatten
  | depth + 1, map entries, bs => ∃ header pieces, Layout.map.Tells entries.length header ∧
    List.Forall₂ (Spells depth) (inTurn entries) pieces ∧ bs = header ++ pieces.flatten
  | _ + 1, extension type content, bs =>
    ∃ header, Layout.extension.Tells content.length header ∧ bs = header ++ type :: content

/-! ## Documents -/

/-- The document shows the datum, and how it was written beside it. -/
inductive Document.Shows : Document → Datum → Prop
  | null : Shows .null .null
  | bool (b : Bool) : Shows (.bool b) (.bool b)
  | unsigned (n : Nat) : Shows (.unsigned n) (.integer n)
  | signed (i : Int) : Shows (.signed i) (.integer i)
  | float (bits : UInt64) (octets : Bytes) : Shows (.float bits) (.float octets)
  | text (m : Option Pack.Marker) (octets : Bytes) : Shows (.text m octets) (.text octets)
  | binary (m : Pack.Marker) (octets : Bytes) : Shows (.binary m octets) (.binary octets)
  | array (m : Option Pack.Marker) {docs : List Document} {items : List Datum}
      (h : List.Forall₂ Shows docs items) : Shows (.array m docs) (.array items)
  | map (m : Option Pack.Marker) {docs : List Document} {entries : List (Datum × Datum)}
      (h : List.Forall₂ Shows docs (Datum.inTurn entries)) : Shows (.map m docs) (.map entries)
  | extension (m : Pack.Marker) (type : UInt8) (content : Bytes) :
      Shows (.extension m none) (.extension type content)

namespace Document

mutual

/-- A document that shows a datum can be passed over. -/
theorem skip_of_shows : ∀ {doc : Document} {d : Datum}, doc.Shows d → skip doc = .ok ()
  | _, _, .null | _, _, .bool _ | _, _, .unsigned _ | _, _, .signed _ | _, _, .float _ _
  | _, _, .text _ _ | _, _, .binary _ _ | _, _, .extension _ _ _ => rfl
  | _, _, .array _ h => skipAll_of_shows h
  | _, _, .map _ h => skipAll_of_shows h

/-- So can several. -/
theorem skipAll_of_shows : ∀ {docs : List Document} {ds : List Datum},
    List.Forall₂ Shows docs ds → skipAll docs = .ok ()
  | _, _, .nil => rfl
  | _, _, .cons h hs => by
    rw [skipAll, skip_of_shows h]
    exact skipAll_of_shows hs

end

end Document

namespace Pack

variable {inner : Option (Bytes → Reading)} {i : Int} {n : Nat} {header octets : Bytes}

/-! ## Forms beside the shortest -/

/-- **A number in a form with a sign is read**, however many octets it takes. -/
theorem readWith_signed (h : TellsSigned i octets) (rest : Bytes) :
    readWith inner (octets ++ rest) = (.signed i, some rest) := by
  cases h with
  | within h => rw [List.singleton_append, readWith, Marker.ofByte_fixNeg h]
  | @after first octets h =>
    have hwide : readWith inner (first :: (octets ++ rest)) =
        readNumber octets.length (fun octets => .signed (Bytes.toInt octets)) (octets ++ rest) := by
      simp only [List.mem_cons, Prod.mk.injEq, List.not_mem_nil, or_false] at h
      rcases h with ⟨rfl, hlen⟩ | ⟨rfl, hlen⟩ | ⟨rfl, hlen⟩ | ⟨rfl, hlen⟩ <;> rw [hlen] <;> rfl
    rw [List.cons_append, hwide, readNumber_append rfl]

/-- The type and the content of an extension are read, whatever follows them. -/
theorem readExtension_append (read : Bytes → Reading) (m : Marker) (type : UInt8)
    (content rest : Bytes) : readExtension (some read) m content.length (type :: content ++ rest) =
      (.extension m none, some rest) := by
  rw [List.cons_append, readExtension, List.take_left, List.drop_left]
  exact if_neg (Nat.lt_irrefl _)

/-! ## Reading -/

/-- Reading octets goes to the end of the datum that they say, and shows it. -/
def ReadsOn (read : Bytes → Reading) (d : Datum) (octets : Bytes) : Prop :=
  ∀ rest, ∃ doc, read (octets ++ rest) = (doc, some rest) ∧ doc.Shows d

/-- Items are read one after another, if each is read whatever follows it. -/
theorem readItems_of_readsOn {read : Bytes → Reading} {items : List Datum} {pieces : List Bytes}
    (h : List.Forall₂ (ReadsOn read) items pieces) (rest : Bytes) :
    ∃ docs, readItems read items.length (pieces.flatten ++ rest) = (docs, some rest) ∧
      List.Forall₂ Document.Shows docs items := by
  induction h with
  | nil => exact ⟨[], rfl, .nil⟩
  | @cons d piece items pieces hd _ ih =>
    obtain ⟨docs, hdocs, hshow⟩ := ih
    obtain ⟨doc, hdoc, hshows⟩ := hd (pieces.flatten ++ rest)
    refine ⟨doc :: docs, ?_, .cons hshows hshow⟩
    rw [List.length_cons, readItems, List.flatten_cons, List.append_assoc, hdoc]
    dsimp only
    rw [hdocs]

/-- A float of four or eight octets is read. -/
theorem readsOn_float (h : octets.length = 4 ∧ header = 0xCA :: octets ∨
    octets.length = 8 ∧ header = 0xCB :: octets) :
    ReadsOn (readWith inner) (.float octets) header := by
  intro rest
  rcases h with ⟨hwidth, rfl⟩ | ⟨hwidth, rfl⟩
  · refine ⟨_, ?_, .float (widen octets) octets⟩
    show readNumber 4 (fun octets => .float (widen octets)) (octets ++ rest) = _
    exact readNumber_append hwidth _ rest
  · refine ⟨_, ?_, .float (UInt64.ofNat (Bytes.toNat octets)) octets⟩
    show readNumber 8 (fun octets => .float (UInt64.ofNat (Bytes.toNat octets)))
      (octets ++ rest) = _
    exact readNumber_append hwidth _ rest

/-- **Well-formed octets are read to their end and no further**, in whatever widths they tell
numbers and sizes. -/
theorem read_of_spells (depth : Nat) (d : Datum) (octets : Bytes) (h : d.Spells depth octets) :
    ReadsOn (Pack.read depth) d octets := by
  rw [read_eq]
  intro rest
  match depth, d, h with
  | _, .null, h =>
    rw [Datum.Spells] at h
    subst h
    exact ⟨.null, rfl, .null⟩
  | _, .bool false, h =>
    rw [Datum.Spells] at h
    subst h
    exact ⟨.bool false, rfl, .bool false⟩
  | _, .bool true, h =>
    rw [Datum.Spells] at h
    subst h
    exact ⟨.bool true, rfl, .bool true⟩
  | _, .integer i, h =>
    rw [Datum.Spells] at h
    obtain ⟨n, rfl, hn⟩ | hi := h
    · exact ⟨_, readWith_natural hn rest, .unsigned n⟩
    · exact ⟨_, readWith_signed hi rest, .signed i⟩
  | _, .float content, h =>
    rw [Datum.Spells] at h
    exact readsOn_float h rest
  | _, .text content, h =>
    rw [Datum.Spells] at h
    obtain ⟨header, hheader, rfl⟩ := h
    refine ⟨_, ?_, .text (some (.ofHeader header)) content⟩
    rw [List.append_assoc, leadsTo_text.readWith hheader, readContent_append]
  | _, .binary content, h =>
    rw [Datum.Spells] at h
    obtain ⟨header, hheader, rfl⟩ := h
    refine ⟨_, ?_, .binary (.ofHeader header) content⟩
    rw [List.append_assoc, leadsTo_binary.readWith hheader, readContent_append]
  -- What is inside a container may open one container less.
  | depth + 1, .array items, h =>
    obtain ⟨header, pieces, hheader, hpieces, rfl⟩ := h
    have hinside := hpieces.imp fun d piece hpiece => read_of_spells depth d piece hpiece
    obtain ⟨docs, hdocs, hshow⟩ := readItems_of_readsOn hinside rest
    refine ⟨_, ?_, .array (some (.ofHeader header)) hshow⟩
    rw [List.append_assoc, leadsTo_array.readWith hheader, inside, readContainer, hdocs]
  | depth + 1, .map entries, h =>
    obtain ⟨header, pieces, hheader, hpieces, rfl⟩ := h
    have hinside := hpieces.imp fun d piece hpiece => read_of_spells depth d piece hpiece
    obtain ⟨docs, hdocs, hshow⟩ := readItems_of_readsOn hinside rest
    refine ⟨_, ?_, .map (some (.ofHeader header)) hshow⟩
    rw [List.append_assoc, leadsTo_map.readWith hheader, inside, readContainer,
      ← Datum.length_inTurn, hdocs]
  | depth + 1, .extension type content, h =>
    obtain ⟨header, hheader, rfl⟩ := h
    refine ⟨_, ?_, .extension (.ofHeader header) type content⟩
    rw [List.append_assoc, leadsTo_extension.readWith hheader, inside, readExtension_append]

end Pack

end StoreClient
