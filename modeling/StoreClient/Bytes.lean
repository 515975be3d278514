/-!
# Byte strings

A byte string is a list of octets: what a frame, a payload and a text are on the wire.

Fixed-width numbers are written most significant octet first. `ofNat` writes the low octets of a
number, `toNat` reads all octets of a string, and the two undo each other on numbers that fit the
width (`toNat_ofNat`) and on all strings of that width (`ofNat_toNat`).
-/

namespace StoreClient

/-- A byte string. -/
abbrev Bytes := List UInt8

namespace Bytes

/-- How many numbers `width` octets can tell apart. -/
def size : (width : Nat) → Nat
  | 0 => 1
  | width + 1 => size width * 256

/-- The low `width` octets of `n`, most significant first. -/
def ofNat : (width n : Nat) → Bytes
  | 0, _ => []
  | width + 1, n => UInt8.ofNat (n / size width) :: ofNat width n

/-- The number that a byte string spells, most significant octet first. -/
def toNat (bs : Bytes) : Nat := bs.foldl (fun n b => n * 256 + b.toNat) 0

/-- The two's complement number that a byte string spells. -/
def toInt (bs : Bytes) : Int :=
  let n := toNat bs
  let count := size bs.length
  if n < count / 2 then n else (n : Int) - count

/-- A number below 256 is an octet. -/
theorem toNat_octet {n : Nat} (h : n < 256) : (UInt8.ofNat n).toNat = n :=
  UInt8.toNat_ofNat_of_lt' h

@[simp] theorem length_ofNat (width n : Nat) : (ofNat width n).length = width := by
  induction width with
  | zero => rfl
  | succ w ih => simp [ofNat, ih]

/-- Reading goes on from a number already read by shifting it past the octets that follow. -/
theorem foldl_eq (bs : Bytes) (n : Nat) :
    bs.foldl (fun n b => n * 256 + b.toNat) n = n * size bs.length + toNat bs := by
  unfold toNat
  induction bs generalizing n with
  | nil => simp [size]
  | cons b bs ih =>
    rw [List.foldl_cons, ih, List.foldl_cons, ih (0 * 256 + b.toNat), List.length_cons, size]
    grind

theorem toNat_cons (b : UInt8) (bs : Bytes) :
    toNat (b :: bs) = b.toNat * size bs.length + toNat bs := by
  have := foldl_eq bs b.toNat
  simpa [toNat] using this

theorem toNat_lt (bs : Bytes) : toNat bs < size bs.length := by
  induction bs with
  | nil => exact Nat.one_pos
  | cons b bs ih =>
    have hb : b.toNat + 1 ≤ 256 := b.toNat_lt
    calc toNat (b :: bs) = b.toNat * size bs.length + toNat bs := toNat_cons b bs
      _ < (b.toNat + 1) * size bs.length := by
        rw [Nat.succ_mul]
        exact Nat.add_lt_add_left ih _
      _ ≤ 256 * size bs.length := Nat.mul_le_mul_right _ hb
      _ = size (b :: bs).length := Nat.mul_comm _ _

/-- **Writing a number and reading it back keeps its low octets.** -/
theorem toNat_ofNat_mod (width n : Nat) : toNat (ofNat width n) = n % size width := by
  induction width with
  | zero => simp [ofNat, toNat, size, Nat.mod_one]
  | succ w ih =>
    rw [ofNat, toNat_cons, ih, length_ofNat, size, Nat.mod_mul]
    simp only [UInt8.toNat_ofNat']
    rw [Nat.mul_comm, Nat.add_comm]

/-- A number that fits the width is read back as it was written. -/
theorem toNat_ofNat {width n : Nat} (h : n < size width) : toNat (ofNat width n) = n := by
  rw [toNat_ofNat_mod, Nat.mod_eq_of_lt h]

theorem size_pos (width : Nat) : 0 < size width := by
  induction width with
  | zero => exact Nat.one_pos
  | succ w ih => exact Nat.mul_pos ih (by decide)

/-- More octets tell more numbers. -/
theorem size_mono {width width' : Nat} (h : width ≤ width') : size width ≤ size width' := by
  induction h with
  | refl => exact Nat.le_refl _
  | step _ ih => exact Nat.le_trans ih (Nat.le_mul_of_pos_right _ (by decide))

/-- Octets above the width do not matter. -/
theorem ofNat_mul_size_add (width k n : Nat) :
    ofNat width (k * size width + n) = ofNat width n := by
  induction width generalizing k with
  | zero => rfl
  | succ w ih =>
    have hshift : k * size (w + 1) + n = k * 256 * size w + n := by
      rw [size, Nat.mul_right_comm, Nat.mul_assoc]
    have hfirst : (k * 256 * size w + n) / size w = k * 256 + n / size w := by
      rw [Nat.add_comm, Nat.add_mul_div_right _ _ (size_pos w), Nat.add_comm]
    rw [hshift, ofNat, hfirst, ih (k * 256), ofNat]
    congr 1
    apply UInt8.toNat_inj.1
    simp

/-- **A byte string is what is written of the number that it spells.** -/
theorem ofNat_toNat (bs : Bytes) : ofNat bs.length (toNat bs) = bs := by
  induction bs with
  | nil => rfl
  | cons b bs ih =>
    have hlt := toNat_lt bs
    have hfirst : (b.toNat * size bs.length + toNat bs) / size bs.length = b.toNat := by
      rw [Nat.add_comm, Nat.add_mul_div_right _ _ (size_pos _), Nat.div_eq_of_lt hlt, Nat.zero_add]
    rw [List.length_cons, toNat_cons, ofNat, hfirst, ofNat_mul_size_add, ih, UInt8.ofNat_toNat]

end Bytes

end StoreClient
