import StoreClient.Pack.Reader
import StoreClient.Pack.Value

/-!
# Headers of MessagePack are read as they were written

A number, and the size of a text, a byte string or a container, can be told in several ways, of
which the shortest is only one (`Layout`). Where reading goes on with the number in each of these
ways (`LeadsTo`), every header is read as the number that it tells. The marker that a reader keeps
is the one the header starts with.
-/

namespace StoreClient.Pack

variable {inner : Option (Bytes → Reading)} {m : Marker} {n : Nat}

/-! ## Parts of a reading -/

/-- A number of fixed width is read as its octets. -/
theorem readNumber_append {width : Nat} {octets : Bytes} (h : octets.length = width)
    (make : Bytes → Document) (rest : Bytes) :
    readNumber width make (octets ++ rest) = (make octets, some rest) := by
  rw [readNumber, List.take_left' h, List.drop_left' h, h]
  exact if_neg (Nat.lt_irrefl width)

/-- A length of fixed width is read, if the width can tell it. -/
theorem readLength_ofNat {width : Nat} (h : n < Bytes.size width) (rest : Bytes)
    (k : Nat → Bytes → Reading) :
    readLength m width (Bytes.ofNat width n ++ rest) k = k n rest := by
  have hwidth := Bytes.length_ofNat width n
  rw [readLength, List.take_left' hwidth, List.drop_left' hwidth, hwidth, Bytes.toNat_ofNat h]
  exact if_neg (Nat.lt_irrefl width)

/-- The content of a text or a byte string is read, whatever follows it. -/
theorem readContent_append (make : Bytes → Document) (content rest : Bytes) :
    readContent m make content.length (content ++ rest) = (make content, some rest) := by
  rw [readContent, List.take_left, List.drop_left]
  exact if_neg (Nat.lt_irrefl _)

/-- Items are read one after another, if each is read whatever follows it. -/
theorem readItems_flatMap {α : Type} {read : Bytes → Reading} {write : α → Bytes}
    {shown : α → Document} {xs : List α}
    (h : ∀ x ∈ xs, ∀ rest, read (write x ++ rest) = (shown x, some rest)) (rest : Bytes) :
    readItems read xs.length (xs.flatMap write ++ rest) = (xs.map shown, some rest) := by
  induction xs with
  | nil => rfl
  | cons x xs ih =>
    obtain ⟨hx, hxs⟩ := List.forall_mem_cons.1 h
    rw [List.length_cons, readItems, List.flatMap_cons, List.append_assoc, hx]
    dsimp only
    rw [ih hxs]
    rfl

/-! ## Markers -/

namespace Marker

/-- The marker that a header starts with. -/
def ofHeader : Bytes → Marker
  | [] => reserved
  | b :: _ => ofByte b

theorem ofByte_fixPos (h : n < 0x80) : ofByte (UInt8.ofNat n) = fixPos n := by
  rw [ofByte, Bytes.toNat_octet (by omega), if_pos h]

theorem ofByte_fixMap (h : n < 16) : ofByte (UInt8.ofNat (0x80 + n)) = fixMap n := by
  rw [ofByte, Bytes.toNat_octet (by omega), if_neg (by omega), if_pos (by omega),
    Nat.add_sub_cancel_left]

theorem ofByte_fixArray (h : n < 16) : ofByte (UInt8.ofNat (0x90 + n)) = fixArray n := by
  rw [ofByte, Bytes.toNat_octet (by omega), if_neg (by omega), if_neg (by omega),
    if_pos (by omega), Nat.add_sub_cancel_left]

theorem ofByte_fixStr (h : n < 32) : ofByte (UInt8.ofNat (0xA0 + n)) = fixStr n := by
  rw [ofByte, Bytes.toNat_octet (by omega), if_neg (by omega), if_neg (by omega),
    if_neg (by omega), if_pos (by omega), Nat.add_sub_cancel_left]

theorem ofByte_fixNeg (h : n < 32) : ofByte (UInt8.ofNat (0xE0 + n)) = fixNeg n := by
  rw [ofByte, Bytes.toNat_octet (by omega), if_neg (by omega), if_neg (by omega),
    if_neg (by omega), if_neg (by omega), if_neg (by omega), Nat.add_sub_cancel_left]

end Marker

/-! ## Layouts -/

/-- How a kind of value tells a number: within the first octet, by an octet that stands for it, or
in octets after the first one. -/
structure Layout where
  /-- The octet for zero, from which those of the numbers below `limit` count. -/
  base : Nat := 0
  limit : Nat := 0
  /-- Octets with the number that each stands for. -/
  fixed : List (UInt8 × Nat) := []
  /-- First octets with the count of the octets after them that hold the number. -/
  wide : List (UInt8 × Nat)

namespace Layout

/-- Numbers without a sign. -/
def natural : Layout where
  limit := 0x80
  wide := [(0xCC, 1), (0xCD, 2), (0xCE, 4), (0xCF, 8)]

/-- Sizes of texts. -/
def text : Layout where
  base := 0xA0
  limit := 32
  wide := [(0xD9, 1), (0xDA, 2), (0xDB, 4)]

/-- Sizes of byte strings. -/
def binary : Layout where
  wide := [(0xC4, 1), (0xC5, 2), (0xC6, 4)]

/-- Sizes of arrays. -/
def array : Layout where
  base := 0x90
  limit := 16
  wide := [(0xDC, 2), (0xDD, 4)]

/-- Sizes of maps. -/
def map : Layout where
  base := 0x80
  limit := 16
  wide := [(0xDE, 2), (0xDF, 4)]

/-- Sizes of extensions. -/
def extension : Layout where
  fixed := [(0xD4, 1), (0xD5, 2), (0xD6, 4), (0xD7, 8), (0xD8, 16)]
  wide := [(0xC7, 1), (0xC8, 2), (0xC9, 4)]

/-- The header tells the number, whether or not it is the shortest that does. -/
inductive Tells (l : Layout) (n : Nat) : (header : Bytes) → Prop
  | within (h : n < l.limit) : l.Tells n [UInt8.ofNat (l.base + n)]
  | fixed {first : UInt8} (h : (first, n) ∈ l.fixed) : l.Tells n [first]
  | after {first : UInt8} {width : Nat} (hfirst : (first, width) ∈ l.wide)
      (h : n < Bytes.size width) : l.Tells n (first :: Bytes.ofNat width n)

end Layout

/-! ## The shortest headers -/

theorem tells_natural (h : n < UInt64.size) : Layout.natural.Tells n (natural n) := by
  unfold natural
  split
  · next h0 =>
    have hwithin : Layout.natural.Tells n [UInt8.ofNat (0 + n)] := .within h0
    rwa [Nat.zero_add] at hwithin
  split
  · next h1 => exact .after (by decide) h1
  split
  · next h2 => exact .after (by decide) h2
  split
  · next h4 => exact .after (by decide) h4
  · exact .after (by decide) h

theorem tells_textHeader (h : n < UInt32.size) : Layout.text.Tells n (textHeader n) := by
  unfold textHeader
  split
  · next h0 => exact .within h0
  split
  · next h1 => exact .after (by decide) h1
  split
  · next h2 => exact .after (by decide) h2
  · exact .after (by decide) h

theorem tells_binaryHeader (h : n < UInt32.size) : Layout.binary.Tells n (binaryHeader n) := by
  unfold binaryHeader
  split
  · next h1 => exact .after (by decide) h1
  split
  · next h2 => exact .after (by decide) h2
  · exact .after (by decide) h

theorem tells_arrayHeader (h : n < UInt32.size) : Layout.array.Tells n (arrayHeader n) := by
  unfold arrayHeader
  split
  · next h0 => exact .within h0
  split
  · next h2 => exact .after (by decide) h2
  · exact .after (by decide) h

theorem tells_mapHeader (h : n < UInt32.size) : Layout.map.Tells n (mapHeader n) := by
  unfold mapHeader
  split
  · next h0 => exact .within h0
  split
  · next h2 => exact .after (by decide) h2
  · exact .after (by decide) h

/-! ## Headers -/

variable {header : Bytes}

/-- **A number without a sign is read**, however many octets it takes. -/
theorem readWith_natural (h : Layout.natural.Tells n header) (rest : Bytes) :
    readWith inner (header ++ rest) = (.unsigned n, some rest) := by
  cases h with
  | within h =>
    show readWith inner (UInt8.ofNat (0 + n) :: rest) = _
    rw [Nat.zero_add, readWith, Marker.ofByte_fixPos h]
  | fixed h => cases h
  | @after first width hfirst h =>
    have hwide : readWith inner (first :: (Bytes.ofNat width n ++ rest)) =
        readNumber width (fun octets => .unsigned (Bytes.toNat octets))
          (Bytes.ofNat width n ++ rest) := by
      simp only [Layout.natural, List.mem_cons, Prod.mk.injEq, List.not_mem_nil, or_false] at hfirst
      rcases hfirst with ⟨rfl, rfl⟩ | ⟨rfl, rfl⟩ | ⟨rfl, rfl⟩ | ⟨rfl, rfl⟩ <;> rfl
    rw [List.cons_append, hwide, readNumber_append (Bytes.length_ofNat width n),
      Bytes.toNat_ofNat h]

/-- Reading goes on with the number that is told, in each of the ways to tell it. -/
structure Layout.LeadsTo (l : Layout) (inner : Option (Bytes → Reading))
    (goOn : Marker → Nat → Bytes → Reading) : Prop where
  within {n : Nat} (h : n < l.limit) (bs : Bytes) :
    readWith inner (UInt8.ofNat (l.base + n) :: bs) =
      goOn (.ofByte (UInt8.ofNat (l.base + n))) n bs
  fixed {first : UInt8} {n : Nat} (h : (first, n) ∈ l.fixed) (bs : Bytes) :
    readWith inner (first :: bs) = goOn (.ofByte first) n bs
  wide {first : UInt8} {width : Nat} (h : (first, width) ∈ l.wide) (bs : Bytes) :
    readWith inner (first :: bs) = readLength (.ofByte first) width bs (goOn (.ofByte first))

/-- **A header is read as the number that it tells**, whether or not it is the shortest. -/
theorem Layout.LeadsTo.readWith {l : Layout} {goOn : Marker → Nat → Bytes → Reading}
    (hl : l.LeadsTo inner goOn) (h : l.Tells n header) (rest : Bytes) :
    Pack.readWith inner (header ++ rest) = goOn (.ofHeader header) n rest := by
  cases h with
  | within h => exact hl.within h rest
  | fixed h => exact hl.fixed h rest
  | after hfirst h =>
    rw [List.cons_append, hl.wide hfirst, readLength_ofNat h, Marker.ofHeader]

/-- The header of a text is read as the number of its octets. -/
theorem leadsTo_text : Layout.text.LeadsTo inner fun m => readContent m (.text (some m)) where
  within h bs := by rw [readWith, Layout.text, Marker.ofByte_fixStr h]
  fixed := nofun
  wide h bs := by
    simp only [Layout.text, List.mem_cons, Prod.mk.injEq, List.not_mem_nil, or_false] at h
    rcases h with ⟨rfl, rfl⟩ | ⟨rfl, rfl⟩ | ⟨rfl, rfl⟩ <;> rfl

/-- The header of a byte string is read as the number of its octets. -/
theorem leadsTo_binary : Layout.binary.LeadsTo inner fun m => readContent m (.binary m) where
  within := nofun
  fixed := nofun
  wide h bs := by
    simp only [Layout.binary, List.mem_cons, Prod.mk.injEq, List.not_mem_nil, or_false] at h
    rcases h with ⟨rfl, rfl⟩ | ⟨rfl, rfl⟩ | ⟨rfl, rfl⟩ <;> rfl

/-- The header of an array is read as the number of its items. -/
theorem leadsTo_array :
    Layout.array.LeadsTo inner fun m => readContainer inner m (.array (some m)) where
  within h bs := by rw [readWith, Layout.array, Marker.ofByte_fixArray h]
  fixed := nofun
  wide h bs := by
    simp only [Layout.array, List.mem_cons, Prod.mk.injEq, List.not_mem_nil, or_false] at h
    rcases h with ⟨rfl, rfl⟩ | ⟨rfl, rfl⟩ <;> rfl

/-- The header of a map is read as the number of its entries, of two values each. -/
theorem leadsTo_map :
    Layout.map.LeadsTo inner fun m n => readContainer inner m (.map (some m)) (2 * n) where
  within h bs := by rw [readWith, Layout.map, Marker.ofByte_fixMap h]
  fixed := nofun
  wide h bs := by
    simp only [Layout.map, List.mem_cons, Prod.mk.injEq, List.not_mem_nil, or_false] at h
    rcases h with ⟨rfl, rfl⟩ | ⟨rfl, rfl⟩ <;> rfl

/-- The header of an extension is read as the number of the octets after its type. -/
theorem leadsTo_extension : Layout.extension.LeadsTo inner (readExtension inner) where
  within := nofun
  fixed h bs := by
    simp only [Layout.extension, List.mem_cons, Prod.mk.injEq, List.not_mem_nil, or_false] at h
    rcases h with ⟨rfl, rfl⟩ | ⟨rfl, rfl⟩ | ⟨rfl, rfl⟩ | ⟨rfl, rfl⟩ | ⟨rfl, rfl⟩ <;> rfl
  wide h bs := by
    simp only [Layout.extension, List.mem_cons, Prod.mk.injEq, List.not_mem_nil, or_false] at h
    rcases h with ⟨rfl, rfl⟩ | ⟨rfl, rfl⟩ | ⟨rfl, rfl⟩ <;> rfl

end StoreClient.Pack
