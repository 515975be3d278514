import StoreClient.Pack.Reader
import StoreClient.Proofs.Document.Stopping
import StoreClient.Proofs.Pack.Values

/-!
# Octets that end early stop the reader

A reader goes through its octets from left to right (`Regular`): what it has read of some octets it
reads of more of them too and leaves the rest, and where it stops, the document says so. The reader
of MessagePack is regular at every depth (`regular_read`). Since it reads a value up to its last
octet, it stops in everything that a value begins with but the value itself (`read_cut`).
-/

namespace StoreClient.Pack

/-- A reader that goes through its octets from left to right. -/
structure Regular (read : Bytes → Reading) : Prop where
  /-- What follows a value does not matter. -/
  lasts : ∀ {bs : Bytes} {d : Document} {rest : Bytes}, read bs = (d, some rest) →
    ∀ more, read (bs ++ more) = (d, some (rest ++ more))
  /-- Where nothing is left to go on with, the document says that reading stopped. -/
  stops : ∀ {bs : Bytes} {d : Document}, read bs = (d, none) → d.Stopped

variable {read : Bytes → Reading} {inner : Option (Bytes → Reading)} {d : Document} {m : Marker}
  {n : Nat}

/-! ## Parts of a reading -/

/-- A value that is told by what was read before it. -/
theorem regular_const (d : Document) : Regular fun bs => (d, some bs) where
  lasts h more := by
    cases h
    rfl
  stops h := by cases h

/-- A reader that stops at once, whatever there is to read. -/
theorem regular_stopped (h : d.Stopped) : Regular fun _ => (d, none) where
  lasts h := by cases h
  stops hread := by
    cases hread
    exact h

/-- A reader that needs `n` octets and goes on with them is regular, if what it goes on with is. -/
theorem regular_take (hd : d.Stopped) (n : Nat) {k : Bytes → Bytes → Reading}
    (hk : ∀ octets, Regular (k octets)) :
    Regular fun bs =>
      if (bs.take n).length < n then (d, none) else k (bs.take n) (bs.drop n) where
  lasts {bs d' rest} h more := by
    by_cases hlen : (bs.take n).length < n
    · rw [if_pos hlen] at h
      cases h
    · have hn : n ≤ bs.length := by
        rw [List.length_take] at hlen
        omega
      rw [if_neg hlen] at h
      rw [List.take_append_of_le_length hn, List.drop_append_of_le_length hn, if_neg hlen]
      exact (hk _).lasts h more
  stops {bs d'} h := by
    by_cases hlen : (bs.take n).length < n
    · rw [if_pos hlen] at h
      cases h
      exact hd
    · rw [if_neg hlen] at h
      exact (hk _).stops h

theorem regular_readNumber (width : Nat) (make : Bytes → Document) :
    Regular (readNumber width make) :=
  regular_take (.unreadable _) width fun octets => regular_const (make octets)

theorem regular_readContent (m : Marker) (make : Bytes → Document) (n : Nat) :
    Regular (readContent m make n) :=
  regular_take (.cut _ _) n fun octets => regular_const (make octets)

theorem regular_readLength {k : Nat → Bytes → Reading} (hk : ∀ n, Regular (k n)) (m : Marker)
    (width : Nat) : Regular fun bs => readLength m width bs k :=
  regular_take (.cut _ _) width fun octets => hk (Bytes.toNat octets)

/-! ## Containers -/

/-- Several values that were read are read of more octets too. -/
theorem readItems_lasts (hread : Regular read) {n : Nat} {bs rest : Bytes} {ds : List Document}
    (h : readItems read n bs = (ds, some rest)) (more : Bytes) :
    readItems read n (bs ++ more) = (ds, some (rest ++ more)) := by
  induction n generalizing bs ds with
  | zero =>
    cases h
    rfl
  | succ n ih =>
    rw [readItems] at h ⊢
    rcases hfirst : read bs with ⟨d, _ | after⟩
    · rw [hfirst] at h
      cases h
    · rw [hfirst] at h
      rw [hread.lasts hfirst more]
      dsimp only at h ⊢
      rcases hothers : readItems read n after with ⟨others, left⟩
      rw [hothers] at h
      cases h
      rw [ih hothers]

/-- Where reading several values stopped, the last of them says so. -/
theorem readItems_stops (hread : Regular read) {n : Nat} {bs : Bytes} {ds : List Document}
    (h : readItems read n bs = (ds, none)) : ∃ before d, ds = before ++ [d] ∧ d.Stopped := by
  induction n generalizing bs ds with
  | zero => cases h
  | succ n ih =>
    rw [readItems] at h
    rcases hfirst : read bs with ⟨d, _ | after⟩
    · rw [hfirst] at h
      cases h
      exact ⟨[], d, rfl, hread.stops hfirst⟩
    · rw [hfirst] at h
      dsimp only at h
      rcases hothers : readItems read n after with ⟨others, left⟩
      rw [hothers] at h
      cases h
      obtain ⟨before, last, rfl, hlast⟩ := ih hothers
      exact ⟨d :: before, last, rfl, hlast⟩

theorem regular_readContainer (hinner : ∀ read ∈ inner, Regular read) (m : Marker)
    (make : List Document → Document)
    (hmake : ∀ before d, d.Stopped → (make (before ++ [d])).Stopped) (n : Nat) :
    Regular (readContainer inner m make n) := by
  cases inner with
  | none => exact regular_stopped (.cut _ _)
  | some read =>
    have hread : Regular read := hinner read rfl
    refine ⟨?_, ?_⟩
    · intro bs d rest h more
      rw [readContainer] at h ⊢
      dsimp only at h ⊢
      rcases hitems : readItems read n bs with ⟨ds, after⟩
      rw [hitems] at h
      cases h
      rw [readItems_lasts hread hitems more]
    · intro bs d h
      rw [readContainer] at h
      dsimp only at h
      rcases hitems : readItems read n bs with ⟨ds, after⟩
      rw [hitems] at h
      cases h
      obtain ⟨before, last, rfl, hlast⟩ := readItems_stops hread hitems
      exact hmake before last hlast

theorem regular_readExtension (inner : Option (Bytes → Reading)) (m : Marker) (n : Nat) :
    Regular (readExtension inner m n) := by
  cases inner with
  | none => exact regular_stopped (.cut _ _)
  | some read =>
    have hcontent := regular_take (.extension m .noContent) n fun _ =>
      regular_const (.extension m none)
    refine ⟨?_, ?_⟩
    · intro bs d rest h more
      cases bs with
      | nil => cases h
      | cons kind content => exact hcontent.lasts h more
    · intro bs d h
      cases bs with
      | nil =>
        cases h
        exact .extension _ _
      | cons kind content => exact hcontent.stops h

/-! ## Values -/

/-- What a marker starts is read regularly, one kind of value at a time. -/
theorem regular_readWith_cons (hinner : ∀ read ∈ inner, Regular read) (b : UInt8) :
    Regular fun bs => readWith inner (b :: bs) := by
  have htext (m : Marker) (n : Nat) := regular_readContent m (.text (some m)) n
  have hbinary (m : Marker) (n : Nat) := regular_readContent m (.binary m) n
  have harray (m : Marker) (n : Nat) :=
    regular_readContainer hinner m (.array (some m)) (fun _ _ h => .array h) n
  have hmap (m : Marker) (n : Nat) :=
    regular_readContainer hinner m (.map (some m)) (fun _ _ h => .map h) (2 * n)
  have hextension (m : Marker) (n : Nat) := regular_readExtension inner m n
  simp only [readWith]
  cases Marker.ofByte b with
  | fixPos _ | fixNeg _ | null | bool _ => exact regular_const _
  | reserved => exact regular_stopped .reserved
  | u8 | u16 | u32 | u64 | i8 | i16 | i32 | i64 | f32 | f64 => exact regular_readNumber _ _
  | fixStr n => exact htext _ n
  | str8 | str16 | str32 => exact regular_readLength (htext _) _ _
  | bin8 | bin16 | bin32 => exact regular_readLength (hbinary _) _ _
  | fixArray n => exact harray _ n
  | array16 | array32 => exact regular_readLength (harray _) _ _
  | fixMap n => exact hmap _ n
  | map16 | map32 => exact regular_readLength (hmap _) _ _
  | fixExt1 | fixExt2 | fixExt4 | fixExt8 | fixExt16 => exact hextension _ _
  | ext8 | ext16 | ext32 => exact regular_readLength (hextension _) _ _

theorem regular_readWith (hinner : ∀ read ∈ inner, Regular read) : Regular (readWith inner) := by
  refine ⟨?_, ?_⟩
  · intro bs d rest h more
    cases bs with
    | nil => cases h
    | cons b bs => exact (regular_readWith_cons hinner b).lasts h more
  · intro bs d h
    cases bs with
    | nil =>
      cases h
      exact .unreadable _
    | cons b bs => exact (regular_readWith_cons hinner b).stops h

/-- **The reader of MessagePack goes through its octets from left to right**, however many containers
it may open. -/
theorem regular_read (depth : Nat) : Regular (Pack.read depth) := by
  induction depth with
  | zero => exact regular_readWith (fun _ h => nomatch h)
  | succ depth ih =>
    apply regular_readWith
    intro read hread
    cases hread
    exact ih

/-- **Reading stops in a value that is cut short.** If the reader had reached an end, it would have
reached the same one in the whole value, which goes on there. -/
theorem read_cut {depth : Nat} {v : Value} (hfits : v.Fits depth) {p rest : Bytes}
    (hcut : p ++ rest = v.encode) (hrest : rest ≠ []) : (Pack.read depth p).1.Stopped := by
  rcases hread : Pack.read depth p with ⟨d, _ | left⟩
  · exact (regular_read depth).stops hread
  · have hwhole := (regular_read depth).lasts hread rest
    have hvalue := Pack.read_encode depth v hfits []
    rw [List.append_nil, ← hcut, hwhole] at hvalue
    -- Nothing is left of the whole value, but `rest` would be.
    injection hvalue with _ hleft
    injection hleft with hnil
    exact absurd (List.append_eq_nil_iff.1 hnil).2 hrest

end StoreClient.Pack
