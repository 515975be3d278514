import Mathlib.Data.List.Nodup
import StoreClient.Proofs.Document.Records
import StoreClient.Proofs.Pack.Data

/-!
# What a record takes from a map

What a map says of a record depends only on the values under the names of its fields: `fill` looks
each of them up among all entries, and passes over a field that is not there. In which order the
entries stand, and which others there are, does not enter into it.

A reader `Takes` data for what they mean, if it reads every document that shows them as that. If the
readers of all fields do, so does that of the record (`Record.Has.takes`). What carries the proof is
that an entry which fills a slot might as well have been the first one (`fill_cons_of_mem`), so
entries can be put into the record in the order in which they come.
-/

namespace StoreClient

variable {α β γ : Type}

/-! ## The meaning of simple data -/

namespace Datum

/-- A number without a sign, up to a bound. -/
def natural? (max : Nat) : Datum → Option Nat
  | integer i => if 0 ≤ i ∧ i ≤ max then some i.toNat else none
  | _ => none

def bool? : Datum → Option Bool
  | bool b => some b
  | _ => none

/-- A byte string, which may be given as a text or as an array of numbers up to 255. -/
def bytes? : Datum → Option Bytes
  | binary octets => some octets
  | text octets => some octets
  | array items => (items.mapM (natural? (UInt8.size - 1))).map (List.map UInt8.ofNat)
  | _ => none

theorem natural?_natCast {max n : Nat} (h : n ≤ max) : natural? max (integer n) = some n := by
  rw [natural?, if_pos ⟨Int.natCast_nonneg n, Int.ofNat_le.2 h⟩, Int.toNat_natCast]

/-- The forms of a byte string mean the same. -/
theorem bytes?_forms (octets : Bytes) :
    bytes? (binary octets) = some octets ∧ bytes? (text octets) = some octets ∧
      bytes? (array (octets.map fun b => integer b.toNat)) = some octets := by
  have hitems : (octets.map fun b => integer b.toNat).mapM (natural? (UInt8.size - 1)) =
      some (octets.map UInt8.toNat) := by
    induction octets with
    | nil => rfl
    | cons b octets ih =>
      rw [List.map_cons, List.mapM_cons, natural?_natCast (Nat.le_sub_one_of_lt b.toNat_lt), ih]
      rfl
  have hback : UInt8.ofNat ∘ UInt8.toNat = id := funext fun _ => UInt8.ofNat_toNat
  exact ⟨rfl, rfl, by rw [bytes?, hitems, Option.map_some, List.map_map, hback, List.map_id]⟩

/-- A value that may be null. -/
def optional (meaning : Datum → Option β) : Datum → Option (Option β)
  | null => some none
  | d => (meaning d).map some

def list? (meaning : Datum → Option β) : Datum → Option (List β)
  | array items => items.mapM meaning
  | _ => none

/-- An entry whose key is a text. -/
def entry? : Datum × Datum → Option (Bytes × Datum)
  | (text key, value) => some (key, value)
  | _ => none

/-- The entries of a map whose keys are texts. -/
def entries? : Datum → Option (List (Bytes × Datum))
  | map entries => entries.mapM entry?
  | _ => none

end Datum

/-! ## The meaning of maps -/

/-- The values under a name. -/
def valuesAt (name : String) (es : List (Bytes × Datum)) : List Datum :=
  es.filterMap fun e => if e.1 = Utf8.encode name then some e.2 else none

/-- A name with what the value under it makes of a record. -/
structure Slot (α : Type) where
  name : String
  meaning : Datum → Option (α → α)

/-- A value that means something on its own and is then put into the record. -/
def Slot.of (name : String) (meaning : Datum → Option β) (put : α → β → α) : Slot α where
  name := name
  meaning d := (meaning d).map fun b a => put a b

/-- What the values under the name of the slot mean. -/
def Slot.held (s : Slot α) (es : List (Bytes × Datum)) : List (Option (α → α)) :=
  (valuesAt s.name es).map s.meaning

/-- Puts what is under the name of the slot into a record. Without a value there the record stays,
and with several there is no meaning. -/
def Slot.fill (s : Slot α) (es : List (Bytes × Datum)) (a : α) : Option α :=
  match s.held es with
  | [] => some a
  | [some put] => some (put a)
  | _ => none

/-- Puts what is under the names of all slots into a record. -/
def fill : List (Slot α) → List (Bytes × Datum) → α → Option α
  | [], _, a => some a
  | s :: slots, es, a => (s.fill es a).bind (fill slots es)

/-- The record that a map means, with the initial values where nothing is said. -/
def meaning? (slots : List (Slot α)) (initial : α) (d : Datum) : Option α :=
  d.entries?.bind fun es => fill slots es initial

/-- What the values under the name of a field say of it: there are none and it has its default, or
there is one and it has what that means. -/
inductive Says (meaning : Datum → Option β) (default : β) : (values : List Datum) → β → Prop
  | absent : Says meaning default [] default
  | present {d : Datum} {b : β} (h : meaning d = some b) : Says meaning default [d] b

section Says

variable {meaning : Datum → Option β} {default b : β}

@[simp] theorem says_nil_iff : Says meaning default [] b ↔ b = default :=
  ⟨fun | .absent => rfl, fun | rfl => .absent⟩

@[simp] theorem says_singleton_iff {d : Datum} : Says meaning default [d] b ↔ meaning d = some b :=
  ⟨fun | .present h => h, .present⟩

/-- A slot is filled with what is said of its field. -/
theorem Slot.fill_of_eq_some_iff {name : String} {put : α → β → α} {a : α}
    (hdefault : put a default = a) (es : List (Bytes × Datum)) (c : α) :
    (Slot.of name meaning put).fill es a = some c ↔
      ∃ b, Says meaning default (valuesAt name es) b ∧ put a b = c := by
  have hname : (Slot.of name meaning put).name = name := rfl
  rw [Slot.fill, Slot.held, hname]
  match valuesAt name es with
  | [] => simp [hdefault]
  | [d] =>
    cases hb : meaning d with
    | none => simp [Slot.of, hb]
    | some b => simp [Slot.of, hb]
  | d :: e :: ds =>
    have hnone (b : β) : ¬ Says meaning default (d :: e :: ds) b := nofun
    simp [hnone]

theorem fill_of_eq_some_iff {name : String} {put : α → β → α} {slots : List (Slot α)}
    {es : List (Bytes × Datum)} {a c : α} (default : β) (hdefault : put a default = a) :
    fill (.of name meaning put :: slots) es a = some c ↔
      ∃ b, Says meaning default (valuesAt name es) b ∧ fill slots es (put a b) = some c := by
  rw [fill, Option.bind_eq_some_iff]
  constructor
  · rintro ⟨_, hslot, hrest⟩
    obtain ⟨b, hb, rfl⟩ := (Slot.fill_of_eq_some_iff hdefault es _).1 hslot
    exact ⟨b, hb, hrest⟩
  · rintro ⟨b, hb, hrest⟩
    exact ⟨put a b, (Slot.fill_of_eq_some_iff hdefault es _).2 ⟨b, hb, rfl⟩, hrest⟩

end Says

/-- Both are maps whose keys are texts, and they say the same under the names of the slots. -/
def SameFields (slots : List (Slot α)) (d d' : Datum) : Prop :=
  ∃ es es', d.entries? = some es ∧ d'.entries? = some es' ∧ ∀ s ∈ slots, s.held es = s.held es'

/-- Maps that say the same in all fields mean the same. -/
theorem meaning?_congr {slots : List (Slot α)} {d d' : Datum} (h : SameFields slots d d')
    (initial : α) : meaning? slots initial d = meaning? slots initial d' := by
  obtain ⟨es, es', hes, hes', hheld⟩ := h
  rw [meaning?, meaning?, hes, hes', Option.bind_some, Option.bind_some]
  clear hes hes'
  induction slots generalizing initial with
  | nil => rfl
  | cons s slots ih =>
    obtain ⟨hs, hslots⟩ := List.forall_mem_cons.1 hheld
    have hfill : s.fill es initial = s.fill es' initial := by rw [Slot.fill, Slot.fill, hs]
    rw [fill, fill, hfill]
    cases s.fill es' initial with
    | none => rfl
    | some a => exact ih a hslots

/-- Without entries a record stays as it is. -/
theorem fill_nil (slots : List (Slot α)) (a : α) : fill slots [] a = some a := by
  induction slots with
  | nil => rfl
  | cons s slots ih => exact ih

/-! ## One entry more -/

section Entries

variable {name : String} {key : Bytes} {value : Datum} {es : List (Bytes × Datum)}

theorem valuesAt_cons_self (name : String) (value : Datum) (es : List (Bytes × Datum)) :
    valuesAt name ((Utf8.encode name, value) :: es) = value :: valuesAt name es := by
  simp [valuesAt]

theorem valuesAt_cons_of_ne (h : key ≠ Utf8.encode name) (value : Datum)
    (es : List (Bytes × Datum)) : valuesAt name ((key, value) :: es) = valuesAt name es := by
  simp [valuesAt, h]

theorem valuesAt_eq_nil_of_cons (h : valuesAt name ((key, value) :: es) = []) :
    valuesAt name es = [] :=
  List.filterMap_eq_nil_iff.2 fun e he =>
    List.filterMap_eq_nil_iff.1 h e (List.mem_cons_of_mem _ he)

theorem Slot.fill_cons_of_ne {s : Slot α} (h : key ≠ Utf8.encode s.name) (value : Datum)
    (es : List (Bytes × Datum)) (a : α) : s.fill ((key, value) :: es) a = s.fill es a := by
  rw [fill, held, valuesAt_cons_of_ne h, ← held, ← fill]

/-- An entry under a name that no slot has is passed over. -/
theorem fill_cons_of_ne {slots : List (Slot α)} (h : ∀ s ∈ slots, key ≠ Utf8.encode s.name)
    (value : Datum) (es : List (Bytes × Datum)) (a : α) :
    fill slots ((key, value) :: es) a = fill slots es a := by
  induction slots generalizing a with
  | nil => rfl
  | cons s slots ih =>
    obtain ⟨hs, hslots⟩ := List.forall_mem_cons.1 h
    rw [fill, fill, Slot.fill_cons_of_ne hs]
    cases s.fill es a with
    | none => rfl
    | some a => exact ih hslots a

/-- What two slots put into a record does not depend on which comes first. -/
def Slot.Apart (s t : Slot α) : Prop :=
  ∀ d e put put', s.meaning d = some put → t.meaning e = some put' →
    ∀ a, put (put' a) = put' (put a)

theorem Slot.apart_of {name name' : String} {meaning : Datum → Option β}
    {meaning' : Datum → Option γ} {put : α → β → α} {put' : α → γ → α}
    (h : ∀ a b c, put (put' a c) b = put' (put a b) c) :
    (Slot.of name meaning put).Apart (Slot.of name' meaning' put') := by
  intro d e f f' hf hf' a
  obtain ⟨b, -, rfl⟩ := Option.map_eq_some_iff.1 hf
  obtain ⟨c, -, rfl⟩ := Option.map_eq_some_iff.1 hf'
  exact h a b c

/-- A slot is filled no differently when another was filled before. -/
theorem Slot.Apart.fill_put {s t : Slot α} (h : s.Apart t) {put : α → α}
    (hput : t.meaning value = some put) {a b : α} (hfill : s.fill es a = some b) :
    s.fill es (put a) = some (put b) := by
  unfold Slot.fill at hfill ⊢
  split at hfill
  · cases hfill
    rfl
  · next put' hheld =>
    cases hfill
    have hmem : some put' ∈ s.held es := by rw [hheld]; exact List.mem_singleton_self _
    obtain ⟨d, -, hd⟩ := List.mem_map.1 hmem
    rw [h d value put' put hd hput]
  · cases hfill

/-- An entry that fills its slot is the only one under its name, and might have been put into the
record before all others. -/
theorem Slot.fill_cons_self {s : Slot α} {a b : α}
    (h : s.fill ((Utf8.encode s.name, value) :: es) a = some b) :
    ∃ put, s.meaning value = some put ∧ valuesAt s.name es = [] ∧ b = put a := by
  rw [Slot.fill, held, valuesAt_cons_self, List.map_cons] at h
  cases hrest : valuesAt s.name es with
  | nil =>
    rw [hrest] at h
    cases hput : s.meaning value with
    | none => simp [hput] at h
    | some put =>
      rw [hput] at h
      exact ⟨put, rfl, rfl, (Option.some.inj h).symm⟩
  | cons d ds => simp [hrest] at h

theorem fill_cons_of_mem {slots : List (Slot α)} (hdistinct : (slots.map Slot.name).Nodup)
    (hapart : slots.Pairwise Slot.Apart) {s : Slot α} (hs : s ∈ slots) {a b : α}
    (h : fill slots ((Utf8.encode s.name, value) :: es) a = some b) :
    ∃ put, s.meaning value = some put ∧ valuesAt s.name es = [] ∧
      fill slots es (put a) = some b := by
  induction slots generalizing a with
  | nil => cases hs
  | cons t slots ih =>
    rw [List.map_cons, List.nodup_cons] at hdistinct
    obtain ⟨hfirst, hlater⟩ := List.pairwise_cons.1 hapart
    rw [fill] at h
    obtain ⟨c, hc, hb⟩ := Option.bind_eq_some_iff.1 h
    rcases List.mem_cons.1 hs with rfl | hs
    · obtain ⟨put, hput, hnone, rfl⟩ := Slot.fill_cons_self hc
      have hothers : ∀ t ∈ slots, Utf8.encode s.name ≠ Utf8.encode t.name := by
        intro t ht heq
        exact hdistinct.1 (Utf8.encode_injective heq ▸ List.mem_map_of_mem ht)
      refine ⟨put, hput, hnone, ?_⟩
      have hpassed : s.fill es (put a) = some (put a) := by
        rw [Slot.fill, Slot.held, hnone, List.map_nil]
      rw [fill, hpassed, Option.bind_some, ← fill_cons_of_ne hothers, hb]
    · have hne : Utf8.encode s.name ≠ Utf8.encode t.name := by
        intro heq
        exact hdistinct.1 (Utf8.encode_injective heq ▸ List.mem_map_of_mem hs)
      obtain ⟨put, hput, hnone, hrest⟩ := ih hdistinct.2 hlater hs hb
      refine ⟨put, hput, hnone, ?_⟩
      rw [Slot.fill_cons_of_ne hne] at hc
      rw [fill, (hfirst s hs).fill_put hput hc, Option.bind_some, hrest]

end Entries

/-! ## Objects -/

/-- A map whose keys are names. -/
def Datum.object (ds : List (String × Datum)) : Datum :=
  .map (ds.map fun (name, d) => (.text (Utf8.encode name), d))

theorem Datum.entries?_object (ds : List (String × Datum)) :
    (object ds).entries? = some (ds.map fun (name, d) => (Utf8.encode name, d)) := by
  rw [object, entries?]
  induction ds with
  | nil => rfl
  | cons e ds ih =>
    rw [List.map_cons, List.mapM_cons, ih]
    rfl

theorem valuesAt_object (name : String) (ds : List (String × Datum)) :
    valuesAt name (ds.map fun (name, d) => (Utf8.encode name, d)) =
      ds.filterMap fun (name', d) => if name' = name then some d else none := by
  induction ds with
  | nil => rfl
  | cons e ds ih =>
    obtain ⟨name', d⟩ := e
    by_cases h : name' = name
    · subst h
      rw [List.map_cons, valuesAt_cons_self, ih]
      simp
    · have hne : Utf8.encode name' ≠ Utf8.encode name := fun heq => h (Utf8.encode_injective heq)
      rw [List.map_cons, valuesAt_cons_of_ne hne, ih]
      simp [h]

/-! ## Readers of simple values -/

/-- The reader reads whatever shows a datum as what the datum means. -/
def Takes (read : Document → Except DocumentError β) (meaning : Datum → Option β) : Prop :=
  ∀ ⦃doc : Document⦄ ⦃d : Datum⦄ ⦃b : β⦄, doc.Shows d → meaning d = some b → read doc = .ok b

section Readers

open Document

variable {read : Document → Except DocumentError β} {meaning : Datum → Option β}

/-- Numbers are taken with or without a sign. -/
theorem takes_natural (w : Width) : Takes (toNat w) (Datum.natural? w.max) := by
  intro doc d n h hn
  cases h with
  | unsigned m =>
    rw [Datum.natural?, Option.ite_none_right_eq_some] at hn
    obtain ⟨⟨-, hmax⟩, hm⟩ := hn
    rw [Document.toNat, if_pos (Int.ofNat_le.1 hmax), ← Option.some.inj hm, Int.toNat_natCast]
  | signed i =>
    rw [Datum.natural?, Option.ite_none_right_eq_some] at hn
    rw [Document.toNat, if_pos hn.1, Option.some.inj hn.2]
  | _ => cases hn

theorem takes_bool : Takes toBool Datum.bool? := by
  intro doc d b h hb
  cases h with
  | bool b' =>
    cases hb
    rfl
  | _ => cases hb

/-- Items are taken one after another. -/
theorem Takes.mapM (ht : Takes read meaning) {docs : List Document} {items : List Datum}
    (h : List.Forall₂ Shows docs items) {bs : List β} (hbs : items.mapM meaning = some bs) :
    docs.mapM read = .ok bs := by
  induction h generalizing bs with
  | nil =>
    cases hbs
    rfl
  | cons hd _ ih =>
    rw [List.mapM_cons] at hbs
    obtain ⟨b, hb, hrest⟩ := Option.bind_eq_some_iff.1 hbs
    obtain ⟨bs', hbs', hcons⟩ := Option.bind_eq_some_iff.1 hrest
    cases hcons
    rw [List.mapM_cons, ht hd hb, ih hbs']
    rfl

theorem Takes.list (ht : Takes read meaning) : Takes (toList read) (Datum.list? meaning) := by
  intro doc d bs h hbs
  cases h with
  | array m hitems => exact ht.mapM hitems hbs
  | _ => cases hbs

/-- A byte string is taken in each of its forms. -/
theorem takes_bytes : Takes toBytes Datum.bytes? := by
  intro doc d bs h hbs
  cases h with
  | binary m octets =>
    cases hbs
    rfl
  | text m octets =>
    cases hbs
    rfl
  | array m hitems =>
    obtain ⟨ns, hns, rfl⟩ := Option.map_eq_some_iff.1 hbs
    rw [toBytes, (takes_natural .u8).mapM hitems hns]
    rfl
  | _ => cases hbs

theorem Takes.optional (ht : Takes read meaning) :
    Takes (toOption read) (Datum.optional meaning) := by
  intro doc d o h ho
  have hread {b : β} (hb : meaning d = some b) : read doc = .ok b := ht h hb
  cases h with
  | null =>
    cases ho
    rfl
  | _ =>
    obtain ⟨b, hb, rfl⟩ := Option.map_eq_some_iff.1 ho
    simp only [toOption, hread hb]

end Readers

/-! ## Readers of records -/

/-- The field is read as what the slot of the same name means. -/
structure Field.Takes (f : Field α) (s : Slot α) : Prop where
  name : f.name = s.name
  read {doc : Document} {d : Datum} {put : α → α} (h : doc.Shows d)
    (hput : s.meaning d = some put) (a : α) : f.read doc a = .ok (put a)

theorem Field.takes_of {read : Document → Except DocumentError β} {meaning : Datum → Option β}
    (ht : StoreClient.Takes read meaning) (name : String) (put : α → β → α) :
    (Field.of name read put).Takes (Slot.of name meaning put) where
  name := rfl
  read h hput a := by
    obtain ⟨b, hb, rfl⟩ := Option.map_eq_some_iff.1 hput
    exact Field.read_of (ht h hb) a

namespace Record

variable {r : Record α} {slots : List (Slot α)}

/-- The fields of a record are read as what the slots mean, each apart from the others, and need not
be there. -/
structure Has (r : Record α) (slots : List (Slot α)) : Prop where
  fields : List.Forall₂ Field.Takes r.fields slots
  distinct : (slots.map Slot.name).Nodup
  apart : slots.Pairwise Slot.Apart
  incomplete : r.complete = false

/-- A key names the field that takes its slot, or no slot has its name. -/
theorem find_slot {fields : List (Field α)} (h : List.Forall₂ Field.Takes fields slots)
    (key : Bytes) :
    (fields.find? (fun f => Utf8.encode f.name == key) = none ∧
      ∀ s ∈ slots, key ≠ Utf8.encode s.name) ∨
    ∃ f, ∃ s ∈ slots, fields.find? (fun f => Utf8.encode f.name == key) = some f ∧ f.Takes s ∧
      key = Utf8.encode s.name := by
  induction h with
  | nil => exact .inl ⟨rfl, List.forall_mem_nil _⟩
  | @cons f s fields slots hf _ ih =>
    by_cases hkey : key = Utf8.encode s.name
    · have hfirst : (Utf8.encode f.name == key) = true := by rw [hf.name, hkey, beq_self_eq_true]
      exact .inr ⟨f, s, List.mem_cons_self, List.find?_cons_of_pos hfirst, hf, hkey⟩
    · have hother : ¬ (Utf8.encode f.name == key) = true := by
        rw [hf.name, beq_iff_eq]
        exact Ne.symm hkey
      have hskip : (f :: fields).find? (fun f => Utf8.encode f.name == key) =
          fields.find? fun f => Utf8.encode f.name == key := List.find?_cons_of_neg hother
      rw [hskip]
      rcases ih with ⟨hnone, hslots⟩ | ⟨g, t, ht, hfound, hg, hname⟩
      · exact .inl ⟨hnone, List.forall_mem_cons.2 ⟨hkey, hslots⟩⟩
      · exact .inr ⟨g, t, List.mem_cons_of_mem s ht, hfound, hg, hname⟩

/-- The entries of a map are read into the record that they fill, in whichever order they come.
`seen` holds the names of fields that come no more. -/
theorem Has.readEntries (h : r.Has slots) {entries : List (Datum × Datum)}
    {es : List (Bytes × Datum)} (hes : entries.mapM Datum.entry? = some es)
    {docs : List Document} (hshows : List.Forall₂ Document.Shows docs (Datum.inTurn entries))
    {a b : α} (hfill : fill slots es a = some b) (seen : List String)
    (hseen : ∀ s ∈ slots, s.name ∈ seen → valuesAt s.name es = []) :
    ∃ seen', r.readEntries docs seen a = .ok (seen', b) := by
  induction entries generalizing es docs a seen with
  | nil =>
    rw [List.mapM_nil] at hes
    cases hes
    cases hshows
    rw [fill_nil] at hfill
    cases hfill
    exact ⟨seen, rfl⟩
  | cons e entries ih =>
    obtain ⟨key, value⟩ := e
    rw [List.mapM_cons] at hes
    obtain ⟨e', he, hrest⟩ := Option.bind_eq_some_iff.1 hes
    obtain ⟨es', hes', hcons⟩ := Option.bind_eq_some_iff.1 hrest
    cases hcons
    cases key with
    | text key =>
      cases he
      cases hshows with | cons hkey hshows =>
      cases hshows with | cons hvalue hshows =>
      cases hkey with | text m =>
      rw [Record.readEntries, Record.field?]
      rcases find_slot h.fields key with ⟨hnone, hothers⟩ | ⟨f, s, hs, hfound, hf, rfl⟩
      · rw [hnone, Document.skip_of_shows hvalue]
        rw [fill_cons_of_ne hothers] at hfill
        refine ih hes' hshows hfill _ fun s hs hmem => ?_
        have hvalues := hseen s hs hmem
        rwa [valuesAt_cons_of_ne (hothers s hs)] at hvalues
      · obtain ⟨put, hput, hlast, hfill⟩ := fill_cons_of_mem h.distinct h.apart hs hfill
        have hnew : f.name ∉ seen := by
          intro hmem
          have hvalues := hseen s hs (hf.name ▸ hmem)
          rw [valuesAt_cons_self] at hvalues
          cases hvalues
        rw [hfound]
        dsimp only
        rw [if_neg hnew, hf.read hvalue hput]
        refine ih hes' hshows hfill _ fun t ht hmem => ?_
        rcases List.mem_cons.1 hmem with hname | hmem
        · rw [hname, hf.name, hlast]
        · exact valuesAt_eq_nil_of_cons (hseen t ht hmem)
    | _ => cases he

/-- **A record takes a map for what the values under its names mean.** -/
theorem Has.takes (h : r.Has slots) : StoreClient.Takes r.read (meaning? slots r.initial) := by
  intro doc d a hshows ha
  obtain ⟨es, hes, hfill⟩ := Option.bind_eq_some_iff.1 ha
  cases hshows with
  | map m hdocs =>
    obtain ⟨seen, hread⟩ := h.readEntries hes hdocs hfill []
      fun _ _ hmem => absurd hmem List.not_mem_nil
    rw [Record.read, readMap, hread]
    dsimp only
    rw [h.incomplete]
    rfl
  | _ => cases hes

end Record

end StoreClient
