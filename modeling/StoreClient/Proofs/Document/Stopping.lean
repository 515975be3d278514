import StoreClient.Document.Record

/-!
# A document at which reading stopped is refused

Where reading stops, the document holds the fault as its last leaf. `Stopped` says so of a document,
however deep inside it that leaf is. No reader of this library gets past it: whatever a reader
expects, it refuses every such document (`Refuses`), records with fields that may be missing included
(`Record.read_refuses`). So octets that end early never pass for a shorter value.
-/

namespace StoreClient

namespace Document

variable {α β : Type}

/-- Reading stopped in the document, or at the last document inside it. -/
inductive Stopped : Document → Prop
  | unreadable (f : ReadFault) : Stopped (.unreadable f)
  | cut (m : Pack.Marker) (f : ReadFault) : Stopped (.cut m f)
  | reserved : Stopped .reserved
  | extension (m : Pack.Marker) (f : ReadFault) : Stopped (.extension m (some f))
  | array {m : Option Pack.Marker} {items : List Document} {d : Document} (h : Stopped d) :
      Stopped (.array m (items ++ [d]))
  | map {m : Option Pack.Marker} {items : List Document} {d : Document} (h : Stopped d) :
      Stopped (.map m (items ++ [d]))

/-- Whether a reader fails on every document at which reading stopped. -/
def Refuses (read : Document → Except DocumentError α) : Prop :=
  ∀ ⦃d : Document⦄, d.Stopped → ∃ e, read d = .error e

/-! ## Errors are errors -/

variable {read : Document → Except DocumentError α} {d : Document}

theorem error_of_mismatch (expected : String) (h : read d = d.mismatch expected) :
    ∃ e, read d = .error e := by
  rw [h, mismatch]
  cases d.found with
  | ok f => exact ⟨_, rfl⟩
  | error e => exact ⟨_, rfl⟩

theorem error_of_scalarMismatch (expected : String) (h : read d = d.scalarMismatch expected) :
    ∃ e, read d = .error e := by
  rw [scalarMismatch] at h
  cases hmarker : d.marker? with
  | none =>
    rw [hmarker] at h
    exact error_of_mismatch expected h
  | some m => exact ⟨.wrongMarker m, by rw [h, hmarker]⟩

/-- Reading a list fails if its last item cannot be read. -/
theorem mapM_append_error (h : ∃ e, read d = .error e) (items : List Document) :
    ∃ e, (items ++ [d]).mapM read = .error e := by
  induction items with
  | nil =>
    obtain ⟨e, he⟩ := h
    exact ⟨e, by rw [List.nil_append, List.mapM_cons, he]; rfl⟩
  | cons first items ih =>
    obtain ⟨e, he⟩ := ih
    rw [List.cons_append, List.mapM_cons]
    cases hfirst : read first with
    | error e' => exact ⟨e', rfl⟩
    | ok a => exact ⟨e, by rw [he]; rfl⟩

/-! ## Readers of simple types -/

theorem toNat_refuses (w : Width) : Refuses (toNat w) := by
  intro d h
  cases h <;> exact error_of_scalarMismatch w.name rfl

theorem toBool_refuses : Refuses toBool := by
  intro d h
  cases h <;> exact error_of_scalarMismatch "a boolean" rfl

theorem toBytes_refuses : Refuses toBytes := by
  intro d h
  cases h with
  | array hlast =>
    obtain ⟨e, he⟩ := mapM_append_error (toNat_refuses .u8 hlast) _
    exact ⟨e, by rw [toBytes, he]; rfl⟩
  | _ => exact error_of_mismatch "byte array" rfl

/-- An option is null or a value, and what stopped is neither. -/
theorem toOption_refuses (hread : Refuses read) :
    Refuses (toOption read) := by
  intro d h
  obtain ⟨e, he⟩ := hread h
  cases h <;> exact ⟨e, by rw [toOption, he] <;> simp⟩

theorem toList_refuses (hread : Refuses read) :
    Refuses (toList read) := by
  intro d h
  cases h with
  | array hlast => exact mapM_append_error (hread hlast) _
  | _ => exact error_of_mismatch "a sequence" rfl

/-! ## Passing over a value -/

theorem skipAll_append_error {d : Document} (h : ∃ e, skip d = .error e) (items : List Document) :
    ∃ e, skipAll (items ++ [d]) = .error e := by
  induction items with
  | nil =>
    obtain ⟨e, he⟩ := h
    exact ⟨e, by rw [List.nil_append, skipAll, he]⟩
  | cons first items ih =>
    rw [List.cons_append, skipAll]
    cases skip first with
    | error e => exact ⟨e, rfl⟩
    | ok _ => exact ih

/-- What stopped cannot even be passed over. -/
theorem skip_refuses : Refuses skip := by
  intro d h
  induction h with
  | unreadable f => exact ⟨_, rfl⟩
  | cut m f => exact ⟨_, rfl⟩
  | reserved => exact ⟨_, rfl⟩
  | extension m f => exact ⟨_, rfl⟩
  | array _ ih =>
    rw [skip]
    exact skipAll_append_error ih _
  | map _ ih =>
    rw [skip]
    exact skipAll_append_error ih _

end Document

/-! ## Records -/

/-- Whether a field refuses what stopped, whatever is in the record already. -/
def Field.Refuses {α : Type} (f : Field α) : Prop :=
  ∀ a, Document.Refuses fun d => f.read d a

theorem Field.of_refuses {α β : Type} {name : String} {read : Document → Except DocumentError β}
    {put : α → β → α} (h : Document.Refuses read) : (Field.of name read put).Refuses := by
  intro a d hd
  obtain ⟨e, he⟩ := h hd
  exact ⟨e, by simp only [Field.of, he]⟩

namespace Record

variable {α : Type} {r : Record α} {fields : List (Field α)} {d : Document}

/-- What stopped names no field. -/
theorem field?_refuses (r : Record α) : Document.Refuses r.field? := by
  intro d h
  cases h <;> exact Document.error_of_mismatch "field identifier" rfl

/-- A field that a key names is one of the record. -/
theorem mem_of_field? {key : Document} {f : Field α} (h : r.field? key = .ok (some f)) :
    f ∈ r.fields := by
  have hposition {n : Nat} (h : r.fields[n]? = some f) : f ∈ r.fields := List.mem_of_getElem? h
  have hname {p : Field α → Bool} (h : r.fields.find? p = some f) : f ∈ r.fields :=
    List.mem_of_find?_eq_some h
  unfold field? at h
  split at h
  · exact hposition (Except.ok.inj h)
  · exact hposition (Except.ok.inj h)
  · exact hname (Except.ok.inj h)
  · exact hname (Except.ok.inj h)
  · unfold Document.mismatch at h
    split at h <;> cases h

/-- What stopped is refused as the value of any key. -/
theorem readEntries_value_error (hfields : ∀ f ∈ r.fields, f.Refuses) (h : d.Stopped)
    (key : Document) (rest : List Document) (seen : List String) (a : α) :
    ∃ e, r.readEntries (key :: d :: rest) seen a = .error e := by
  rw [readEntries]
  cases hkey : r.field? key with
  | error e => exact ⟨e, rfl⟩
  | ok field =>
    cases field with
    | none =>
      obtain ⟨e, he⟩ := Document.skip_refuses h
      exact ⟨e, by rw [he]⟩
    | some f =>
      dsimp only
      by_cases hseen : f.name ∈ seen
      · exact ⟨_, if_pos hseen⟩
      · obtain ⟨e, he⟩ := hfields f (mem_of_field? hkey) a h
        dsimp only at he
        exact ⟨e, by rw [if_neg hseen, he]⟩

/-- **Entries of which the last one stopped are refused**, whether it stopped at a key or at a
value. -/
theorem readEntries_append_error (hfields : ∀ f ∈ r.fields, f.Refuses) (h : d.Stopped)
    (items : List Document) (seen : List String) (a : α) :
    ∃ e, r.readEntries (items ++ [d]) seen a = .error e := by
  match items with
  | [] =>
    obtain ⟨e, he⟩ := r.field?_refuses h
    exact ⟨e, by rw [List.nil_append, readEntries, he]⟩
  | [key] => exact readEntries_value_error hfields h key [] seen a
  | key :: value :: rest =>
    have hrest := readEntries_append_error hfields h rest
    rw [List.cons_append, List.cons_append, readEntries]
    cases r.field? key with
    | error e => exact ⟨e, rfl⟩
    | ok field =>
      cases field with
      | none =>
        dsimp only
        cases value.skip with
        | error e => exact ⟨e, rfl⟩
        | ok _ => exact hrest seen a
      | some f =>
        dsimp only
        by_cases hseen : f.name ∈ seen
        · exact ⟨_, if_pos hseen⟩
        · rw [if_neg hseen]
          cases f.read value a with
          | error e => exact ⟨e, rfl⟩
          | ok b => exact hrest (f.name :: seen) b

/-- Items of which the last one stopped are not all read into fields: that one is refused or left. -/
theorem readItems_append (hfields : ∀ f ∈ fields, f.Refuses) (h : d.Stopped)
    (items : List Document) (a : α) :
    (∃ e, readItems fields (items ++ [d]) a = .error e) ∨
      ∃ left b, left ≠ [] ∧ readItems fields (items ++ [d]) a = .ok ([], left, b) := by
  induction fields generalizing items a with
  | nil => exact .inr ⟨items ++ [d], a, by simp, by rw [readItems]; simp⟩
  | cons f fields ih =>
    obtain ⟨hf, hothers⟩ := List.forall_mem_cons.1 hfields
    cases items with
    | nil =>
      obtain ⟨e, he⟩ := hf a h
      dsimp only at he
      exact .inl ⟨e, by rw [List.nil_append, readItems, he]⟩
    | cons first items =>
      rw [List.cons_append, readItems]
      cases f.read first a with
      | error e => exact .inl ⟨e, rfl⟩
      | ok b => exact ih hothers items b

/-- **A record refuses every document at which reading stopped**, if its fields do. That a field may
be missing does not help: a map that ends early is not a map without the entries that follow. -/
theorem read_refuses (hfields : ∀ f ∈ r.fields, f.Refuses) : Document.Refuses r.read := by
  intro d h
  cases h with
  | map hlast =>
    obtain ⟨e, he⟩ := readEntries_append_error hfields hlast _ [] r.initial
    exact ⟨e, by rw [read, readMap, he]⟩
  | array hlast =>
    rw [read, readArray]
    rcases readItems_append hfields hlast _ r.initial with ⟨e, he⟩ | ⟨left, b, hleft, hok⟩
    · exact ⟨e, by rw [he]⟩
    · obtain ⟨first, rest, rfl⟩ := List.exists_cons_of_ne_nil hleft
      rw [hok]
      exact ⟨_, if_neg Bool.false_ne_true⟩
  | _ => exact Document.error_of_mismatch s!"struct {r.name}" rfl

end Record

end StoreClient
