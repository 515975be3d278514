import StoreClient.Proofs.Pack.Values

/-!
# Simple values are read from their documents

Each reader of a simple type gives back what was written as a value of its kind.
-/

namespace StoreClient.Document

variable {α : Type}

theorem toText_document (s : String) : toText (Value.text s).document = .ok s := by
  rw [Value.document, Value.textDocument, toText, Utf8.decode_encode]

theorem toBytes_document (bs : Bytes) : toBytes (Value.binary bs).document = .ok bs := rfl

theorem toBool_document (b : Bool) : toBool (Value.bool b).document = .ok b := rfl

theorem toNat_document {w : Width} {n : Nat} (h : n ≤ w.max) :
    toNat w (Value.nat n).document = .ok n :=
  if_pos h

/-- A byte string that may be missing is kept apart from an empty one. -/
theorem toOption_document (o : Option Bytes) :
    toOption toBytes (Value.ofOption .binary o).document = .ok o := by
  cases o <;> rfl

/-- A list is read item by item. -/
theorem toList_document {write : α → Value} {read : Document → Except DocumentError α}
    {as : List α} (h : ∀ a ∈ as, read (write a).document = .ok a) :
    toList read (Value.array (as.map write)).document = .ok as := by
  rw [Value.document, Value.documents_eq_map, toList]
  induction as with
  | nil => rfl
  | cons a as ih =>
    obtain ⟨ha, has⟩ := List.forall_mem_cons.1 h
    rw [List.map_cons, List.map_cons, List.mapM_cons, ha, ih has]
    rfl

end StoreClient.Document
