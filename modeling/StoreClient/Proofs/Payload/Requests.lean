import StoreClient.Command.Verb
import StoreClient.Proofs.Payload.Records

/-!
# Requests lose nothing

A command that names no bucket, or no key where it needs one, makes no operation. All others make
one, whose request tells the command apart from every other: its kind, the bucket, the key and every
option, and whether an option is set at all (`requests_lose_nothing`).

Entries that are left out are the difficulty. They are peeled off one by one: what follows an entry
never has the key of that entry.
-/

namespace StoreClient

/-! ## Entries that may be missing -/

namespace Value

variable {α : Type} {key : String} {f : α → Value} {o o' : Option α}
  {rest rest' : List (String × Value)}

theorem key_of_mem_optional {e : String × Value} (h : e ∈ entry? key f o) : e.1 = key := by
  cases o with
  | none => cases h
  | some a => exact congrArg Prod.fst (List.mem_singleton.1 h)

/-- An entry that may be missing is told from what follows it by its key. -/
theorem entry?_append_inj (hf : ∀ {a b}, f a = f b → a = b) (hrest : ∀ e ∈ rest, e.1 ≠ key)
    (hrest' : ∀ e ∈ rest', e.1 ≠ key) (h : entry? key f o ++ rest = entry? key f o' ++ rest') :
    o = o' ∧ rest = rest' := by
  rcases o with _ | a <;> rcases o' with _ | b
  · exact ⟨rfl, h⟩
  · have hmem : (key, f b) ∈ rest := by
      rw [show rest = entry? key f (some b) ++ rest' from h]
      exact List.mem_cons_self
    exact absurd rfl (hrest _ hmem)
  · have hmem : (key, f a) ∈ rest' := by
      rw [show rest' = entry? key f (some a) ++ rest from h.symm]
      exact List.mem_cons_self
    exact absurd rfl (hrest' _ hmem)
  · injection h with hentry hrest
    injection hentry with _ hvalue
    exact ⟨congrArg some (hf hvalue), hrest⟩

/-- An entry that may be missing, at the end. -/
theorem entry?_inj (hf : ∀ {a b}, f a = f b → a = b) (h : entry? key f o = entry? key f o') :
    o = o' := by
  refine (entry?_append_inj hf ?_ ?_ (congrArg (· ++ []) h)).1 <;>
  · intro e he
    cases he

theorem inTurn_append (es fs : List (String × Value)) :
    inTurn (es ++ fs) = inTurn es ++ inTurn fs := by
  induction es with
  | nil => rfl
  | cons e es ih => rw [List.cons_append, inTurn, inTurn, ih, List.cons_append, List.cons_append]

/-- There are at most `count` entries, and headers can tell the sizes of all keys and values. -/
structure EntriesFit (depth count : Nat) (entries : List (String × Value)) : Prop where
  length_le : entries.length ≤ count
  fits : ∀ v ∈ inTurn entries, v.Fits depth

namespace EntriesFit

variable {depth count count' : Nat}

theorem append (h : EntriesFit depth count rest) (h' : EntriesFit depth count' rest') :
    EntriesFit depth (count + count') (rest ++ rest') where
  length_le := by
    rw [List.length_append]
    exact Nat.add_le_add h.length_le h'.length_le
  fits v hv := by
    rw [inTurn_append] at hv
    rcases List.mem_append.1 hv with hv | hv
    · exact h.fits v hv
    · exact h'.fits v hv

theorem nil : EntriesFit depth 0 [] where
  length_le := Nat.le_refl 0
  fits v hv := by cases hv

theorem cons {v : Value} (hkey : (Utf8.encode key).length < UInt32.size) (hv : v.Fits depth)
    (h : EntriesFit depth count rest) : EntriesFit depth (count + 1) ((key, v) :: rest) where
  length_le := Nat.succ_le_succ h.length_le
  fits w hw := by
    rw [inTurn, List.mem_cons, List.mem_cons] at hw
    rcases hw with rfl | rfl | hw
    · simpa [Fits] using hkey
    · exact hv
    · exact h.fits w hw

theorem optional (hkey : (Utf8.encode key).length < UInt32.size)
    (h : ∀ a ∈ o, (f a).Fits depth) : EntriesFit depth 1 ( entry? key f o) := by
  cases o with
  | none => exact ⟨Nat.zero_le 1, nil.fits⟩
  | some a => exact cons hkey (h a rfl) nil

/-- A map of entries that fit fits. -/
theorem map (h : EntriesFit depth count rest) (hcount : count < UInt32.size) :
    (Value.map rest).Fits (depth + 1) :=
  ⟨Nat.lt_of_le_of_lt h.length_le hcount, h.fits⟩

end EntriesFit

end Value

open Value (EntriesFit entry?_append_inj entry?_inj key_of_mem_optional)

/-! ## The parts of a request -/

namespace Request

theorem number_inj {a b : UInt32} (h : number a = number b) : a = b := by
  injection h with h
  exact UInt32.toNat_inj.1 h

theorem number_fits (n : UInt32) (depth : Nat) : (number n).Fits depth := by
  have hlt : n.toNat < UInt64.size := Nat.lt_trans n.toNat_lt (by decide)
  simpa [number, Value.Fits] using hlt

theorem namespaceEntries_append_inj {ns ns' : Namespace} {rest rest' : List (String × Value)}
    (h : namespaceEntries ns ++ rest = namespaceEntries ns' ++ rest') :
    ns = ns' ∧ rest = rest' := by
  simp only [namespaceEntries, List.cons_append, List.nil_append, List.cons.injEq, Prod.mk.injEq,
    Value.text.injEq, true_and] at h
  obtain ⟨htype, hbucket, hrest⟩ := h
  constructor
  · cases ns
    cases ns'
    exact congrArg₂ Namespace.mk htype hbucket
  · exact hrest

theorem locationEntries_append_inj {l l' : Location} {rest rest' : List (String × Value)}
    (h : locationEntries l ++ rest = locationEntries l' ++ rest') : l = l' ∧ rest = rest' := by
  rw [locationEntries, locationEntries, List.append_assoc, List.append_assoc] at h
  obtain ⟨hwithin, h⟩ := namespaceEntries_append_inj h
  simp only [List.cons_append, List.nil_append, List.cons.injEq, Prod.mk.injEq, Value.text.injEq,
    true_and] at h
  obtain ⟨hkey, hrest⟩ := h
  constructor
  · cases l
    cases l'
    exact congrArg₂ Location.mk hwithin hkey
  · exact hrest

theorem namespaceEntries_fit {ns : Namespace} (h : ns.Short) (depth : Nat) :
    EntriesFit depth 2 (namespaceEntries ns) := by
  refine .cons (by decide) ?_ (.cons (by decide) ?_ .nil)
  · simpa [Value.Fits] using h.1
  · simpa [Value.Fits] using h.2

theorem locationEntries_fit {l : Location} (h : l.Short) (depth : Nat) :
    EntriesFit depth 3 (locationEntries l) := by
  refine (namespaceEntries_fit h.1 depth).append (.cons (by decide) ?_ .nil)
  simpa [Value.Fits] using h.2

end Request

/-! ## Commands that can be written -/

/-- Whether headers can tell the lengths of all that a fetch names. -/
def Fetch.Short (c : Fetch) : Prop := c.location.Short

/-- Whether headers can tell the lengths of all that a store names. -/
def Store.Short (c : Store) : Prop :=
  c.location.Short ∧ c.value.length < UInt32.size ∧
    (∀ s ∈ c.contentType, (Utf8.encode s).length < UInt32.size) ∧
    ∀ bs ∈ c.vclock, bs.length < UInt32.size

/-- Whether headers can tell the lengths of all that a delete names. -/
def Delete.Short (c : Delete) : Prop :=
  c.location.Short ∧ ∀ bs ∈ c.vclock, bs.length < UInt32.size

/-- Whether headers can tell the lengths of all that a listing names. -/
def ListKeys.Short (c : ListKeys) : Prop := c.within.Short

/-! ## Bodies -/

namespace Fetch

theorem body_fits {c : Fetch} (h : c.Short) (depth : Nat) : c.body.Fits (depth + 1) := by
  refine EntriesFit.map (((Request.locationEntries_fit h depth).append
    (.optional (by decide) ?_)).append (.cons (by decide) ?_ .nil)) (by decide)
  · intro n _
    exact Request.number_fits n depth
  · simp [Value.Fits]

theorem body_inj {c c' : Fetch} (h : c.body = c'.body) : c = c' := by
  simp only [body, Value.map.injEq, List.append_assoc] at h
  obtain ⟨hlocation, h⟩ := Request.locationEntries_append_inj h
  have hlast (b : Bool) : ∀ e ∈ [("notFoundOk", Value.bool b)], e.1 ≠ "r" := by
    simp
  obtain ⟨hr, h⟩ := entry?_append_inj Request.number_inj (hlast _) (hlast _) h
  have hnotFoundOk : c.notFoundOk = c'.notFoundOk := by simpa using h
  cases c
  cases c'
  simp_all

end Fetch

namespace Store

theorem body_fits {c : Store} (h : c.Short) (depth : Nat) : c.body.Fits (depth + 1) := by
  obtain ⟨hlocation, hvalue, htype, hvclock⟩ := h
  refine EntriesFit.map (((((Request.locationEntries_fit hlocation depth).append
    (.cons (by decide) ?_ .nil)).append (.optional (by decide) ?_)).append
    (.optional (by decide) ?_)).append (.optional (by decide) ?_)) (by decide)
  · simpa [Value.Fits] using hvalue
  · intro s hs
    simpa [Value.Fits] using htype s hs
  · intro bs hbs
    simpa [Value.Fits] using hvclock bs hbs
  · intro n _
    exact Request.number_fits n depth

theorem body_inj {c c' : Store} (h : c.body = c'.body) : c = c' := by
  simp only [body, Value.map.injEq, List.append_assoc] at h
  obtain ⟨hlocation, h⟩ := Request.locationEntries_append_inj h
  simp only [List.cons_append, List.nil_append, List.cons.injEq, Prod.mk.injEq,
    Value.binary.injEq, true_and] at h
  obtain ⟨hvalue, h⟩ := h
  have hw (c : Store) : ∀ e ∈ Value.entry? "w" Request.number c.w, e.1 ≠ "vclock" := by
    intro e he
    rw [key_of_mem_optional he]
    decide
  have hvclock (c : Store) : ∀ e ∈ Value.entry? "vclock" .binary c.vclock ++
      Value.entry? "w" Request.number c.w, e.1 ≠ "contentType" := by
    intro e he
    rcases List.mem_append.1 he with he | he <;> rw [key_of_mem_optional he] <;> decide
  obtain ⟨htype, h⟩ := entry?_append_inj Value.text.inj (hvclock c) (hvclock c') h
  obtain ⟨hvclock, h⟩ := entry?_append_inj Value.binary.inj (hw c) (hw c') h
  have hw := entry?_inj Request.number_inj h
  cases c
  cases c'
  simp_all

end Store

namespace Delete

theorem body_fits {c : Delete} (h : c.Short) (depth : Nat) : c.body.Fits (depth + 1) := by
  refine EntriesFit.map ((Request.locationEntries_fit h.1 depth).append (.optional (by decide) ?_))
    (by decide)
  intro bs hbs
  simpa [Value.Fits] using h.2 bs hbs

theorem body_inj {c c' : Delete} (h : c.body = c'.body) : c = c' := by
  simp only [body, Value.map.injEq] at h
  obtain ⟨hlocation, h⟩ := Request.locationEntries_append_inj h
  have hvclock := entry?_inj Value.binary.inj h
  cases c
  cases c'
  simp_all

end Delete

namespace ListKeys

theorem body_fits {c : ListKeys} (h : c.Short) (depth : Nat) : c.body.Fits (depth + 1) := by
  refine EntriesFit.map ((Request.namespaceEntries_fit h depth).append (.optional (by decide) ?_))
    (by decide)
  intro n _
  exact Request.number_fits n depth

theorem body_inj {c c' : ListKeys} (h : c.body = c'.body) : c = c' := by
  simp only [body, Value.map.injEq] at h
  obtain ⟨hwithin, h⟩ := Request.namespaceEntries_append_inj h
  have htimeout := entry?_inj Request.number_inj h
  cases c
  cases c'
  simp_all

end ListKeys

/-! ## Commands of all kinds -/

/-- A command to the store, of any kind. -/
inductive AnyCommand where
  | fetch (c : Fetch)
  | store (c : Store)
  | delete (c : Delete)
  | listKeys (c : ListKeys)
  deriving DecidableEq, Repr

namespace AnyCommand

/-- The kind of command. -/
def verb : AnyCommand → Verb
  | fetch _ => .fetch
  | store _ => .store
  | delete _ => .delete
  | listKeys _ => .listKeys

/-- The command as it is dispatched. -/
def command : (c : AnyCommand) → Command c.verb.signature
  | fetch c => c.command
  | store c => c.command
  | delete c => c.command
  | listKeys c => c.command

/-- The bucket that the command is about. -/
def within : AnyCommand → Namespace
  | fetch c => c.location.within
  | store c => c.location.within
  | delete c => c.location.within
  | listKeys c => c.within

/-- The key that the command is about, if it is not about all keys. -/
def key? : AnyCommand → Option String
  | fetch c => some c.location.key
  | store c => some c.location.key
  | delete c => some c.location.key
  | listKeys _ => none

/-- The path of what the command is about. -/
def path : AnyCommand → String
  | fetch c => c.location.path
  | store c => c.location.path
  | delete c => c.location.path
  | listKeys c => c.within.path

/-- Whether headers can tell the lengths of all texts and byte strings of the command. -/
def Short : AnyCommand → Prop
  | fetch c => c.Short
  | store c => c.Short
  | delete c => c.Short
  | listKeys c => c.Short

/-- The code of the request. -/
def code : AnyCommand → UInt8
  | fetch _ => Code.fetch
  | store _ => Code.store
  | delete _ => Code.delete
  | listKeys _ => Code.listKeys

/-- The body of the request. -/
def body : AnyCommand → Value
  | fetch c => c.body
  | store c => c.body
  | delete c => c.body
  | listKeys c => c.body

/-- What is checked before the request is made. -/
def check : AnyCommand → Outcome Unit
  | fetch c => Request.checkLocation c.location
  | store c => Request.checkLocation c.location
  | delete c => Request.checkLocation c.location
  | listKeys c => Request.checkNamespace c.within

/-- The kind of operation that the command makes, with its request. -/
def kind : (c : AnyCommand) → Message → Kind c.verb.signature
  | fetch c, m => Fetch.kind c.location m
  | store c, m => Store.kind c.location m
  | delete c, m => Delete.kind c.location m
  | listKeys c, m => (ListKeys.kind c.within m).toKind

theorem request_kind (c : AnyCommand) (m : Message) : (c.kind m).request = m := by
  cases c <;> rfl

theorem query_kind (c : AnyCommand) (m : Message) : (c.kind m).query = c.command.query := by
  cases c <;> rfl

/-- What makes a command fail is the check; otherwise its operation asks with its code and body. -/
theorem operation_eq (c : AnyCommand) : c.command.operation =
    c.check.map fun _ => Operation.ofKind (c.kind ⟨c.code, c.body.encode⟩) := by
  cases c with
  | fetch c =>
    simp only [command, check, Fetch.command, Fetch.request, Command.ofKind]
    cases Request.checkLocation c.location <;> rfl
  | store c =>
    simp only [command, check, Store.command, Store.request, Command.ofKind]
    cases Request.checkLocation c.location <;> rfl
  | delete c =>
    simp only [command, check, Delete.command, Delete.request, Command.ofKind]
    cases Request.checkLocation c.location <;> rfl
  | listKeys c =>
    simp only [command, check, ListKeys.command, ListKeys.build, ListKeys.request, Command.ofKind]
    cases Request.checkNamespace c.within <;> rfl

/-- The request of the operation, if there is one. -/
theorem request_of_operation {c : AnyCommand} {op : Operation c.verb.signature}
    (h : c.command.operation = .ok op) :
    op.kind.request = ⟨c.code, c.body.encode⟩ ∧ op.kind.query = c.command.query := by
  rw [operation_eq] at h
  cases hcheck : c.check with
  | error e => simp [hcheck, Except.map] at h
  | ok u =>
    simp only [hcheck, Except.map, Except.ok.injEq] at h
    rw [← h]
    exact ⟨c.request_kind _, c.query_kind _⟩

/-- The check fails for the bucket first, then for the key. -/
theorem check_eq (c : AnyCommand) :
    c.check =
      if c.within.bucket = "" then .error (.buildFailed s!"{c.path}: bucket must not be empty")
      else if c.key? = some "" then .error (.buildFailed s!"{c.path}: key must not be empty")
      else .ok () := by
  cases c with
  | fetch c | store c | delete c =>
    simp only [check, within, key?, path, Request.checkLocation, String.isEmpty_iff,
      Option.some.injEq]
    rfl
  | listKeys c =>
    simp only [check, within, key?, path, Request.checkNamespace, String.isEmpty_iff, reduceCtorEq,
      if_false]
    rfl

theorem body_fits {c : AnyCommand} (h : c.Short) (depth : Nat) : c.body.Fits (depth + 1) := by
  cases c with
  | fetch c => exact Fetch.body_fits h depth
  | store c => exact Store.body_fits h depth
  | delete c => exact Delete.body_fits h depth
  | listKeys c => exact ListKeys.body_fits h depth

/-- The code tells the kind of a command, and the body tells the rest. -/
theorem eq_of_code_of_body {c c' : AnyCommand} (hcode : c.code = c'.code)
    (hbody : c.body = c'.body) : c = c' := by
  have hcodes : Code.fetch ≠ Code.store ∧ Code.fetch ≠ Code.delete ∧ Code.fetch ≠ Code.listKeys ∧
      Code.store ≠ Code.delete ∧ Code.store ≠ Code.listKeys ∧ Code.delete ≠ Code.listKeys := by
    decide
  obtain ⟨hfs, hfd, hfl, hsd, hsl, hdl⟩ := hcodes
  cases c with
  | fetch c =>
    cases c' with
    | fetch c' => rw [Fetch.body_inj hbody]
    | store c' => exact absurd hcode hfs
    | delete c' => exact absurd hcode hfd
    | listKeys c' => exact absurd hcode hfl
  | store c =>
    cases c' with
    | fetch c' => exact absurd hcode.symm hfs
    | store c' => rw [Store.body_inj hbody]
    | delete c' => exact absurd hcode hsd
    | listKeys c' => exact absurd hcode hsl
  | delete c =>
    cases c' with
    | fetch c' => exact absurd hcode.symm hfd
    | store c' => exact absurd hcode.symm hsd
    | delete c' => rw [Delete.body_inj hbody]
    | listKeys c' => exact absurd hcode hdl
  | listKeys c =>
    cases c' with
    | fetch c' => exact absurd hcode.symm hfl
    | store c' => exact absurd hcode.symm hsl
    | delete c' => exact absurd hcode.symm hdl
    | listKeys c' => rw [ListKeys.body_inj hbody]

/-- **Requests lose nothing.** A command makes no operation if and only if its bucket or its key is
empty, and the text says which, the bucket first. Otherwise the operation is about what the command
is about, and no other command of any kind makes the same request. -/
theorem requests_lose_nothing (c : AnyCommand) :
    ((∃ e, c.command.operation = .error e) ↔ c.within.bucket = "" ∨ c.key? = some "") ∧
    (∀ e, c.command.operation = .error e → e = .buildFailed
      (if c.within.bucket = "" then s!"{c.path}: bucket must not be empty"
        else s!"{c.path}: key must not be empty")) ∧
    ∀ op, c.command.operation = .ok op → op.kind.query = c.command.query ∧
      ∀ (c' : AnyCommand) (op' : Operation c'.verb.signature), c'.command.operation = .ok op' →
        c.Short → c'.Short → op.kind.request = op'.kind.request → c = c' := by
  refine ⟨?_, ?_, ?_⟩
  · rw [operation_eq, check_eq]
    by_cases hbucket : c.within.bucket = ""
    · simp [hbucket, Except.map]
    by_cases hkey : c.key? = some ""
    · simp [hbucket, hkey, Except.map]
    · simp [hbucket, hkey, Except.map]
  · intro e he
    rw [operation_eq, check_eq] at he
    by_cases hbucket : c.within.bucket = ""
    · simpa [hbucket, Except.map, eq_comm] using he
    by_cases hkey : c.key? = some ""
    · simpa [hbucket, hkey, Except.map, eq_comm] using he
    · simp [hbucket, hkey, Except.map] at he
  · intro op hop
    obtain ⟨hrequest, hquery⟩ := request_of_operation hop
    refine ⟨hquery, ?_⟩
    intro c' op' hop' hshort hshort' heq
    rw [hrequest, (request_of_operation hop').1] at heq
    injection heq with hcode hpayload
    exact eq_of_code_of_body hcode
      (Value.encode_inj (body_fits hshort 0) (body_fits hshort' 0) hpayload)

/-- A store without a content type. -/
def untyped : AnyCommand := .store { location := ⟨.ofBucket "users", "bob"⟩, value := [0x2A] }

/-- The same store, with an empty text for its content type. -/
def emptyTyped : AnyCommand :=
  .store { location := ⟨⟨"default", "users"⟩, "bob"⟩, value := [0x2A], contentType := some "" }

/-- A command has its own request, and a content type that is not set is told from one that is
empty. -/
theorem untyped_loses_nothing : ∃ op op', untyped.command.operation = .ok op ∧
    emptyTyped.command.operation = .ok op' ∧ untyped.Short ∧ emptyTyped.Short ∧
    untyped = .store { location := ⟨⟨"default", "users"⟩, "bob"⟩, value := [0x2A] } ∧
    op.kind.request ≠ op'.kind.request := by
  have hop : untyped.command.operation =
      .ok (Operation.ofKind (untyped.kind ⟨untyped.code, untyped.body.encode⟩)) := rfl
  have hop' : emptyTyped.command.operation =
      .ok (Operation.ofKind (emptyTyped.kind ⟨emptyTyped.code, emptyTyped.body.encode⟩)) := rfl
  have hlocation : (⟨.ofBucket "users", "bob"⟩ : Location).Short :=
    ⟨⟨by decide, by decide⟩, by decide⟩
  have hshort : untyped.Short := ⟨hlocation, by decide, nofun, nofun⟩
  have hshort' : emptyTyped.Short := by
    refine ⟨hlocation, by decide, ?_, nofun⟩
    rintro s ⟨⟩
    decide
  obtain ⟨-, hown⟩ := (requests_lose_nothing untyped).2.2 _ hop
  refine ⟨_, _, hop, hop', hshort, hshort', ?_, ?_⟩
  · exact hown (.store { location := ⟨⟨"default", "users"⟩, "bob"⟩, value := [0x2A] }) _ hop hshort
      hshort rfl
  · intro heq
    exact absurd (hown _ _ hop' hshort hshort' heq) (by decide)

end AnyCommand

end StoreClient
