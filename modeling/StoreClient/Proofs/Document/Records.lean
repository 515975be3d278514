import Mathlib.Data.List.Nodup
import StoreClient.Document.Record
import StoreClient.Proofs.Document.Values

/-!
# Records are read from their documents

A record is written as a map of its fields in order. If each field is read from its value, so is the
record (`read_document`). What carries the proof is `Fills`: values fill fields one after another.
-/

namespace StoreClient

variable {α β : Type}

/-- A field that is read on its own. -/
theorem Field.read_of {name : String} {read : Document → Except DocumentError β} {put : α → β → α}
    {d : Document} {b : β} (h : read d = .ok b) (a : α) :
    (Field.of name read put).read d a = .ok (put a b) := by
  rw [Field.of]
  dsimp only
  rw [h]

namespace Record

/-- Entries fill fields in order, each under the name of its field, and take one record to
another. -/
inductive Fills : List (Field α) → List (String × Value) → α → α → Prop
  | nil (a : α) : Fills [] [] a a
  | cons {f : Field α} {fields : List (Field α)} {v : Value} {entries : List (String × Value)}
      {a b c : α} (hread : f.read v.document a = .ok b) (hrest : Fills fields entries b c) :
      Fills (f :: fields) ((f.name, v) :: entries) a c

variable {r : Record α} {f : Field α} {fields : List (Field α)} {entries : List (String × Value)}
  {a b : α}

/-- The name of a field finds that field, if names differ. -/
theorem field?_name (hnodup : (r.fields.map Field.name).Nodup) (hf : f ∈ r.fields) :
    r.field? (Value.text f.name).document = .ok (some f) := by
  rw [Value.document, Value.textDocument, field?]
  congr 1
  -- Some field is found, since `f` is there, and it is `f`, since no other has its name.
  cases hfound : r.fields.find? fun g => Utf8.encode g.name == Utf8.encode f.name with
  | none =>
    have hnone := List.find?_eq_none.1 hfound f hf
    simp at hnone
  | some g =>
    have hname : g.name = f.name := Utf8.encode_injective (by simpa using List.find?_some hfound)
    have hg := List.mem_of_find?_eq_some hfound
    rw [List.inj_on_of_nodup_map hnodup hg hf hname]

/-- Entries that fill fields of a record are read as what they fill it with. -/
theorem readEntries_of_fills (hnodup : (r.fields.map Field.name).Nodup)
    (h : Fills fields entries a b) (hfields : ∀ f ∈ fields, f ∈ r.fields)
    (hdistinct : (fields.map Field.name).Nodup) {seen : List String}
    (hseen : ∀ f ∈ fields, f.name ∉ seen) :
    r.readEntries ((Value.inTurn entries).map Value.document) seen a =
      .ok ((fields.map Field.name).reverse ++ seen, b) := by
  induction h generalizing seen with
  | nil a => rfl
  | cons hread hrest ih =>
    rename_i f fields v entries a b c
    obtain ⟨hf, hothers⟩ := List.forall_mem_cons.1 hfields
    obtain ⟨hnew, hlater⟩ := List.forall_mem_cons.1 hseen
    rw [List.map_cons, List.nodup_cons] at hdistinct
    have hunseen : ∀ g ∈ fields, g.name ∉ f.name :: seen := by
      intro g hg hmem
      rcases List.mem_cons.1 hmem with heq | hmem
      · exact hdistinct.1 (heq ▸ List.mem_map_of_mem hg)
      · exact hlater g hg hmem
    rw [Value.inTurn, List.map_cons, List.map_cons, readEntries, field?_name hnodup hf]
    dsimp only
    rw [if_neg hnew, hread]
    dsimp only
    rw [ih hothers hdistinct.2 hunseen, List.map_cons, List.reverse_cons, List.append_assoc,
      List.singleton_append]

/-- **A record is read from the map of its fields.** -/
theorem read_document (hnodup : (r.fields.map Field.name).Nodup)
    (h : Fills r.fields entries r.initial a) : r.read (Value.map entries).document = .ok a := by
  have hentries := readEntries_of_fills hnodup h (fun _ hf => hf) hnodup
    (fun _ _ => List.not_mem_nil)
  have hall :
      r.fields.find? (fun f => f.name ∉ (r.fields.map Field.name).reverse ++ []) = none := by
    apply List.find?_eq_none.2
    intro f hf
    simpa using ⟨f, hf, rfl⟩
  rw [Value.document, Value.entryDocuments_eq_map, read, readMap, hentries]
  dsimp only
  rw [hall]
  simp

end Record

end StoreClient
