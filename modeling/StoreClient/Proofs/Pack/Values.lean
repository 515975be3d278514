import StoreClient.Proofs.Pack.Headers
import StoreClient.Proofs.Text.Utf8

/-!
# Values are read as they were written

`Value.document` is what a reader sees of a value. Reading the octets of a value gives that document
and leaves what follows them (`read_encode`), for every value whose sizes a header can tell and
which opens no more containers at once than a reader does. So no two such values are written alike
(`encode_append_inj`).
-/

namespace StoreClient

namespace Value

/-! ## What a reader sees of a value -/

/-- The document that a text is read as. -/
def textDocument (s : String) : Document :=
  .text (some (.ofHeader (Pack.textHeader (Utf8.encode s).length))) (Utf8.encode s)

mutual

/-- The document that a value is read as. -/
def document : Value → Document
  | null => .null
  | bool b => .bool b
  | nat n => .unsigned n
  | text s => textDocument s
  | binary bs => .binary (.ofHeader (Pack.binaryHeader bs.length)) bs
  | array items => .array (some (.ofHeader (Pack.arrayHeader items.length))) (documents items)
  | map entries =>
    .map (some (.ofHeader (Pack.mapHeader entries.length))) (entryDocuments entries)

/-- The documents of the items of an array. -/
def documents : List Value → List Document
  | [] => []
  | v :: rest => document v :: documents rest

/-- The documents of the keys and values of a map in turn. -/
def entryDocuments : List (String × Value) → List Document
  | [] => []
  -- The key is not `document (text key)`, since that is no part of the entries.
  | (key, v) :: rest => textDocument key :: document v :: entryDocuments rest

end

/-- The keys and values of a map in turn. -/
def inTurn : List (String × Value) → List Value
  | [] => []
  | (key, v) :: rest => text key :: v :: inTurn rest

theorem length_inTurn (entries : List (String × Value)) :
    (inTurn entries).length = 2 * entries.length := by
  induction entries with
  | nil => rfl
  | cons e entries ih =>
    rw [inTurn, List.length_cons, List.length_cons, ih, List.length_cons]
    omega

theorem documents_eq_map (items : List Value) : documents items = items.map document := by
  induction items with
  | nil => rfl
  | cons v items ih => rw [documents, ih, List.map_cons]

theorem entryDocuments_eq_map (entries : List (String × Value)) :
    entryDocuments entries = (inTurn entries).map document := by
  induction entries with
  | nil => rfl
  | cons e entries ih => rw [entryDocuments, ih, inTurn, List.map_cons, List.map_cons, document]

theorem encodeAll_eq_flatMap (items : List Value) : encodeAll items = items.flatMap encode := by
  induction items with
  | nil => rfl
  | cons v items ih => rw [encodeAll, ih, List.flatMap_cons]

theorem encodeEntries_eq_flatMap (entries : List (String × Value)) :
    encodeEntries entries = (inTurn entries).flatMap encode := by
  induction entries with
  | nil => rfl
  | cons e entries ih =>
    rw [encodeEntries, ih, inTurn, List.flatMap_cons, List.flatMap_cons, encode,
      List.append_assoc]

/-! ## Values that can be written -/

/-- Whether headers can tell the sizes of a value, and no more than `depth` containers are open in
it at once. -/
def Fits : (depth : Nat) → Value → Prop
  | _, null => True
  | _, bool _ => True
  | _, nat n => n < UInt64.size
  | _, text s => (Utf8.encode s).length < UInt32.size
  | _, binary bs => bs.length < UInt32.size
  | 0, array _ => False
  | 0, map _ => False
  | depth + 1, array items => items.length < UInt32.size ∧ ∀ v ∈ items, Fits depth v
  | depth + 1, map entries => entries.length < UInt32.size ∧ ∀ v ∈ inTurn entries, Fits depth v

end Value

namespace Pack

variable {inner : Option (Bytes → Reading)}

/-! ## Reading values without items -/

theorem readWith_text {s : String} (h : (Utf8.encode s).length < UInt32.size) (rest : Bytes) :
    readWith inner ((Value.text s).encode ++ rest) = ((Value.text s).document, some rest) := by
  rw [Value.encode, text, List.append_assoc, leadsTo_text.readWith (tells_textHeader h),
    readContent_append, Value.document, Value.textDocument]

theorem readWith_binary {bs : Bytes} (h : bs.length < UInt32.size) (rest : Bytes) :
    readWith inner ((Value.binary bs).encode ++ rest) =
      ((Value.binary bs).document, some rest) := by
  rw [Value.encode, binary, List.append_assoc, leadsTo_binary.readWith (tells_binaryHeader h),
    readContent_append, Value.document]

/-! ## Reading containers -/

variable {read : Bytes → Reading} {items : List Value} {entries : List (String × Value)}

theorem readWith_array (hlen : items.length < UInt32.size)
    (h : ∀ v ∈ items, ∀ rest, read (v.encode ++ rest) = (v.document, some rest)) (rest : Bytes) :
    readWith (some read) ((Value.array items).encode ++ rest) =
      ((Value.array items).document, some rest) := by
  rw [Value.encode, List.append_assoc, leadsTo_array.readWith (tells_arrayHeader hlen),
    readContainer, Value.encodeAll_eq_flatMap]
  dsimp only
  rw [readItems_flatMap h, Value.document, Value.documents_eq_map]

theorem readWith_map (hlen : entries.length < UInt32.size)
    (h : ∀ v ∈ Value.inTurn entries, ∀ rest, read (v.encode ++ rest) = (v.document, some rest))
    (rest : Bytes) :
    readWith (some read) ((Value.map entries).encode ++ rest) =
      ((Value.map entries).document, some rest) := by
  rw [Value.encode, List.append_assoc, leadsTo_map.readWith (tells_mapHeader hlen), readContainer,
    Value.encodeEntries_eq_flatMap, ← Value.length_inTurn]
  dsimp only
  rw [readItems_flatMap h, Value.document, Value.entryDocuments_eq_map]

/-! ## Reading values -/

/-- The reader of values inside one at which `depth` containers may still be opened. -/
def inside : (depth : Nat) → Option (Bytes → Reading)
  | 0 => none
  | depth + 1 => some (Pack.read depth)

theorem read_eq (depth : Nat) : Pack.read depth = readWith (inside depth) := by
  cases depth <;> rfl

/-- **A value is read as its document, and what follows it is left.** -/
theorem read_encode (depth : Nat) (v : Value) (h : v.Fits depth) (rest : Bytes) :
    Pack.read depth (v.encode ++ rest) = (v.document, some rest) := by
  match depth, v, h with
  | depth, .null, _ =>
    rw [read_eq, Value.encode]
    rfl
  | depth, .bool false, _ =>
    rw [read_eq, Value.encode]
    rfl
  | depth, .bool true, _ =>
    rw [read_eq, Value.encode]
    rfl
  | depth, .nat n, h =>
    rw [Value.Fits] at h
    rw [read_eq, Value.encode, Value.document]
    exact readWith_natural (tells_natural h) rest
  | depth, .text s, h =>
    rw [Value.Fits] at h
    rw [read_eq]
    exact readWith_text h rest
  | depth, .binary bs, h =>
    rw [Value.Fits] at h
    rw [read_eq]
    exact readWith_binary h rest
  -- What is inside a container may open one container less.
  | depth + 1, .array items, h =>
    exact readWith_array h.1 (fun v hv => read_encode depth v (h.2 v hv)) rest
  | depth + 1, .map entries, h =>
    exact readWith_map h.1 (fun v hv => read_encode depth v (h.2 v hv)) rest

end Pack

namespace Value

/-! ## Different values are written differently -/

theorem textDocument_inj {s t : String} (h : textDocument s = textDocument t) : s = t := by
  unfold textDocument at h
  injection h with _ hoctets
  exact Utf8.encode_injective hoctets

mutual

/-- A document is the document of one value only. -/
theorem document_inj : ∀ {v w : Value}, v.document = w.document → v = w
  | null, w, h => by
    cases w <;> simp only [document, textDocument, reduceCtorEq] at h
    rfl
  | bool b, w, h => by
    cases w <;> simp only [document, textDocument, reduceCtorEq, Document.bool.injEq] at h
    rw [h]
  | nat n, w, h => by
    cases w <;> simp only [document, textDocument, reduceCtorEq, Document.unsigned.injEq] at h
    rw [h]
  | text s, w, h => by
    cases w with
    | text t =>
      simp only [document] at h
      rw [textDocument_inj h]
    | _ => simp only [document, textDocument, reduceCtorEq] at h
  | binary bs, w, h => by
    cases w with
    | binary cs =>
      simp only [document] at h
      injection h with _ hoctets
      rw [hoctets]
    | _ => simp only [document, textDocument, reduceCtorEq] at h
  | array items, w, h => by
    cases w with
    | array others =>
      simp only [document] at h
      injection h with _ hitems
      rw [documents_inj hitems]
    | _ => simp only [document, textDocument, reduceCtorEq] at h
  | map entries, w, h => by
    cases w with
    | map others =>
      simp only [document] at h
      injection h with _ hentries
      rw [entryDocuments_inj hentries]
    | _ => simp only [document, textDocument, reduceCtorEq] at h

/-- The same for the items of an array. -/
theorem documents_inj : ∀ {vs ws : List Value}, documents vs = documents ws → vs = ws
  | [], [], _ => rfl
  | [], _ :: _, h => by simp only [documents, reduceCtorEq] at h
  | _ :: _, [], h => by simp only [documents, reduceCtorEq] at h
  | v :: vs, w :: ws, h => by
    simp only [documents] at h
    injection h with hfirst hrest
    rw [document_inj hfirst, documents_inj hrest]

/-- The same for the entries of a map. -/
theorem entryDocuments_inj :
    ∀ {es fs : List (String × Value)}, entryDocuments es = entryDocuments fs → es = fs
  | [], [], _ => rfl
  | [], _ :: _, h => by simp only [entryDocuments, reduceCtorEq] at h
  | _ :: _, [], h => by simp only [entryDocuments, reduceCtorEq] at h
  | (key, v) :: es, (key', w) :: fs, h => by
    simp only [entryDocuments] at h
    injection h with hkey hrest
    injection hrest with hfirst hrest
    rw [textDocument_inj hkey, document_inj hfirst, entryDocuments_inj hrest]

end

/-- **Different values have different MessagePack forms**, and neither is the beginning of the
other. -/
theorem encode_append_inj {depth : Nat} {v w : Value} (hv : v.Fits depth) (hw : w.Fits depth)
    {rest rest' : Bytes} (h : v.encode ++ rest = w.encode ++ rest') : v = w ∧ rest = rest' := by
  have hread : (v.document, some rest) = (w.document, some rest') := by
    rw [← Pack.read_encode depth v hv, h, Pack.read_encode depth w hw]
  injection hread with hdocument hrest
  injection hrest with hrest
  exact ⟨document_inj hdocument, hrest⟩

theorem encode_inj {depth : Nat} {v w : Value} (hv : v.Fits depth) (hw : w.Fits depth)
    (h : v.encode = w.encode) : v = w :=
  (encode_append_inj hv hw (congrArg (· ++ []) h)).1

end Value

end StoreClient
