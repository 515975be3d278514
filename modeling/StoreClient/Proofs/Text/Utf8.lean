import StoreClient.Text.Utf8

/-!
# What is written as UTF-8 is read again

The octets of a character are one segment, whatever follows them (`segments_utf8EncodeChar_append`).
So the octets of a text are read as that text (`decode_encode`), and texts with the same octets are
the same (`encode_injective`).

Nothing else is read: a segment that is a character takes the octets of that character
(`next_eq_char`), so what is read as a text are its octets (`decode_eq_ok_iff`). Octets are those of
a text (`IsText`) unless reading them fails.
-/

namespace StoreClient.Utf8

open Bytes (toNat_octet)

/-! ## Octets of a character -/

/-- What an octet above the ASCII ones starts, by its number. -/
theorem Lead.of?_ofNat {n : Nat} (h : n < 256) : Lead.of? (UInt8.ofNat n) =
    if n < 0xC2 then none
    else if n ≤ 0xDF then some ⟨n - 0xC0, 0x80, 0xBF, 1⟩
    else if n = 0xE0 then some ⟨0, 0xA0, 0xBF, 2⟩
    else if n = 0xED then some ⟨0xD, 0x80, 0x9F, 2⟩
    else if n ≤ 0xEF then some ⟨n - 0xE0, 0x80, 0xBF, 2⟩
    else if n = 0xF0 then some ⟨0, 0x90, 0xBF, 3⟩
    else if n = 0xF4 then some ⟨4, 0x80, 0x8F, 3⟩
    else if n ≤ 0xF3 then some ⟨n - 0xF0, 0x80, 0xBF, 3⟩
    else none := by
  simp only [Lead.of?, UInt8.lt_iff_toNat_lt, UInt8.le_iff_toNat_le, ← UInt8.toNat_inj,
    toNat_octet h]
  rfl

theorem next_of_lead {n : Nat} {lead : Lead} (hn : 0x80 ≤ n) (hlt : n < 256)
    (h : Lead.of? (UInt8.ofNat n) = some lead) (rest : Bytes) :
    next (UInt8.ofNat n) rest = follow lead.bits lead.low lead.high lead.following 1 rest := by
  have hb : ¬ UInt8.ofNat n < 0x80 := by
    rw [UInt8.lt_iff_toNat_lt, toNat_octet hlt]
    exact Nat.not_lt.2 hn
  rw [next, if_neg hb, h]

/-- An octet that goes on with a character adds six bits to it. -/
theorem follow_ofNat {low high : UInt8} {x : Nat} (hx : x < 64) (hlow : low.toNat ≤ x + 128)
    (hhigh : x + 128 ≤ high.toNat) (value n seen : Nat) (rest : Bytes) :
    follow value low high (n + 1) seen (UInt8.ofNat (x + 128) :: rest) =
      follow (value * 64 + x) 0x80 0xBF n (seen + 1) rest := by
  have hb : (UInt8.ofNat (x + 128)).toNat = x + 128 := toNat_octet (by omega)
  have hrange : low ≤ UInt8.ofNat (x + 128) ∧ UInt8.ofNat (x + 128) ≤ high := by
    rw [UInt8.le_iff_toNat_le, UInt8.le_iff_toNat_le, hb]
    exact ⟨hlow, hhigh⟩
  have hbits : (x + 128) % 64 = x := by omega
  rw [follow, if_pos hrange, hb, hbits]

/-- After the second octet of a character any six bits may come. -/
theorem follow_ofNat_mod (y value n seen : Nat) (rest : Bytes) :
    follow value 0x80 0xBF (n + 1) seen (UInt8.ofNat (y % 64 + 128) :: rest) =
      follow (value * 64 + y % 64) 0x80 0xBF n (seen + 1) rest := by
  have hy : y % 64 < 64 := Nat.mod_lt y (by decide)
  apply follow_ofNat hy
  · exact Nat.le_add_left 128 _
  · show y % 64 + 128 ≤ 191
    omega

/-! ## Characters -/

/-- Surrogates and what is above U+10FFFF are no characters. -/
theorem toNat_char (c : Char) : c.toNat < 0xD800 ∨ 0xDFFF < c.toNat ∧ c.toNat < 0x110000 :=
  c.valid

/-- The range of the second of three octets admits all characters and keeps the rest out. -/
theorem lead_three (c : Char) (hlow : 0x7FF < c.toNat) (hhigh : c.toNat ≤ 0xFFFF) :
    ∃ low high, Lead.of? (UInt8.ofNat (c.toNat / 4096 % 16 + 224)) =
        some ⟨c.toNat / 4096, low, high, 2⟩ ∧
      low.toNat ≤ c.toNat / 64 % 64 + 128 ∧ c.toNat / 64 % 64 + 128 ≤ high.toNat := by
  have hvalid := toNat_char c
  rw [Lead.of?_ofNat (by omega), if_neg (by omega), if_neg (by omega)]
  -- The first octet `e0` would start over-long forms, and `ed` surrogates.
  by_cases hzero : c.toNat / 4096 = 0
  · rw [if_pos (by omega), hzero]
    refine ⟨0xA0, 0xBF, rfl, ?_, ?_⟩
    · show 160 ≤ _
      omega
    · show _ ≤ 191
      omega
  rw [if_neg (by omega)]
  by_cases hsurrogates : c.toNat / 4096 = 13
  · rw [if_pos (by omega), hsurrogates]
    refine ⟨0x80, 0x9F, rfl, ?_, ?_⟩
    · show 128 ≤ _
      omega
    · show _ ≤ 159
      omega
  have hbits : c.toNat / 4096 % 16 + 224 - 0xE0 = c.toNat / 4096 := by omega
  rw [if_neg (by omega), if_pos (by omega), hbits]
  refine ⟨0x80, 0xBF, rfl, ?_, ?_⟩
  · show 128 ≤ _
    omega
  · show _ ≤ 191
    omega

/-- The range of the second of four octets admits all characters and keeps the rest out. -/
theorem lead_four (c : Char) (hlow : 0xFFFF < c.toNat) :
    ∃ low high, Lead.of? (UInt8.ofNat (c.toNat / 262144 % 8 + 240)) =
        some ⟨c.toNat / 262144, low, high, 3⟩ ∧
      low.toNat ≤ c.toNat / 4096 % 64 + 128 ∧ c.toNat / 4096 % 64 + 128 ≤ high.toNat := by
  have hvalid := toNat_char c
  rw [Lead.of?_ofNat (by omega), if_neg (by omega), if_neg (by omega), if_neg (by omega),
    if_neg (by omega), if_neg (by omega)]
  -- The first octet `f0` would start over-long forms, and `f4` what is above U+10FFFF.
  by_cases hzero : c.toNat / 262144 = 0
  · rw [if_pos (by omega), hzero]
    refine ⟨0x90, 0xBF, rfl, ?_, ?_⟩
    · show 144 ≤ _
      omega
    · show _ ≤ 191
      omega
  rw [if_neg (by omega)]
  by_cases hlast : c.toNat / 262144 = 4
  · rw [if_pos (by omega), hlast]
    refine ⟨0x80, 0x8F, rfl, ?_, ?_⟩
    · show 128 ≤ _
      omega
    · show _ ≤ 143
      omega
  have hbits : c.toNat / 262144 % 8 + 240 - 0xF0 = c.toNat / 262144 := by omega
  rw [if_neg (by omega), if_pos (by omega), hbits]
  refine ⟨0x80, 0xBF, rfl, ?_, ?_⟩
  · show 128 ≤ _
    omega
  · show _ ≤ 191
    omega

/-- **The octets of a character are read as that character**, whatever follows them. -/
theorem segments_utf8EncodeChar_append (c : Char) (rest : Bytes) :
    segments (String.utf8EncodeChar c ++ rest) = .char c :: segments rest := by
  have hvalid := toNat_char c
  have hval : c.val.toNat = c.toNat := rfl
  rw [String.utf8EncodeChar.eq_1, hval]
  -- A character has one to four octets, by the size of its number.
  by_cases h1 : c.toNat ≤ 0x7F
  · have hb : UInt8.ofNat c.toNat < 0x80 := by
      rw [UInt8.lt_iff_toNat_lt, toNat_octet (by omega)]
      exact Nat.lt_succ_of_le h1
    rw [if_pos h1, List.singleton_append, segments_cons, next, if_pos hb, toNat_octet (by omega),
      Char.ofNat_toNat]
  rw [if_neg h1]
  by_cases h2 : c.toNat ≤ 0x7FF
  · have hlead : Lead.of? (UInt8.ofNat (c.toNat / 64 % 32 + 192)) =
        some ⟨c.toNat / 64, 0x80, 0xBF, 1⟩ := by
      have hbits : c.toNat / 64 % 32 + 192 - 0xC0 = c.toNat / 64 := by omega
      rw [Lead.of?_ofNat (by omega), if_neg (by omega), if_pos (by omega), hbits]
    have hbits : c.toNat / 64 * 64 + c.toNat % 64 = c.toNat := by omega
    rw [if_pos h2, List.cons_append, segments_cons, next_of_lead (by omega) (by omega) hlead,
      List.singleton_append, follow_ofNat_mod, hbits, follow, Char.ofNat_toNat]
  rw [if_neg h2]
  by_cases h3 : c.toNat ≤ 0xFFFF
  · obtain ⟨low, high, hlead, hlow, hhigh⟩ := lead_three c (by omega) h3
    have hbits : (c.toNat / 4096 * 64 + c.toNat / 64 % 64) * 64 + c.toNat % 64 = c.toNat := by
      omega
    rw [if_pos h3, List.cons_append, segments_cons, next_of_lead (by omega) (by omega) hlead,
      List.cons_append, follow_ofNat (Nat.mod_lt _ (by decide)) hlow hhigh, List.singleton_append,
      follow_ofNat_mod, hbits, follow, Char.ofNat_toNat]
  · obtain ⟨low, high, hlead, hlow, hhigh⟩ := lead_four c (by omega)
    have hbits : ((c.toNat / 262144 * 64 + c.toNat / 4096 % 64) * 64 + c.toNat / 64 % 64) * 64 +
        c.toNat % 64 = c.toNat := by
      omega
    rw [if_neg h3, List.cons_append, segments_cons, next_of_lead (by omega) (by omega) hlead,
      List.cons_append, follow_ofNat (Nat.mod_lt _ (by decide)) hlow hhigh, List.cons_append,
      follow_ofNat_mod, List.singleton_append, follow_ofNat_mod, hbits, follow, Char.ofNat_toNat]

/-! ## Texts -/

theorem segments_flatMap_utf8EncodeChar (cs : List Char) :
    segments (cs.flatMap String.utf8EncodeChar) = cs.map .char := by
  induction cs with
  | nil => exact segments_nil
  | cons c cs ih => rw [List.flatMap_cons, segments_utf8EncodeChar_append, ih, List.map_cons]

theorem charsFrom_map_char (start : Nat) (done cs : List Char) :
    charsFrom start done (cs.map .char) = .ok (done.reverse ++ cs) := by
  induction cs generalizing start done with
  | nil => simp [charsFrom]
  | cons c cs ih => simp [charsFrom, ih]

/-- **A text is read from its octets.** -/
@[simp] theorem decode_encode (s : String) : decode (encode s) = .ok s := by
  rw [decode, encode, segments_flatMap_utf8EncodeChar, charsFrom_map_char]
  simp [Except.map]

theorem encode_injective {s t : String} (h : encode s = encode t) : s = t := by
  have hdecode := decode_encode s
  rw [h, decode_encode] at hdecode
  exact (Except.ok.inj hdecode).symm

/-! ## Nothing else is read -/

section Converse

variable {value n seen : Nat} {low high b : UInt8} {lead : Lead} {c : Char} {rest rest' : Bytes}

/-- A character that goes on has a next octet in the range. -/
theorem follow_succ_eq_char (h : follow value low high (n + 1) seen rest = (.char c, rest')) :
    ∃ b tail, rest = b :: tail ∧ low.toNat ≤ b.toNat ∧ b.toNat ≤ high.toNat ∧
      follow (value * 64 + b.toNat % 64) 0x80 0xBF n (seen + 1) tail = (.char c, rest') := by
  cases rest with
  | nil => cases h
  | cons b tail =>
    rw [follow] at h
    split at h
    · next hrange => exact ⟨b, tail, rfl, hrange.1, hrange.2, h⟩
    · cases h

/-- What the first octet of several settles: how many follow, and that with the second of them
there are neither over-long forms nor surrogates, nor what is above U+10FFFF. -/
theorem Lead.cases_of? (h : Lead.of? b = some lead) :
    (lead.following = 1 ∧ b.toNat = lead.bits + 192 ∧ 2 ≤ lead.bits ∧ lead.bits < 32 ∧
      lead.low = 0x80 ∧ lead.high = 0xBF) ∨
    (lead.following = 2 ∧ b.toNat = lead.bits + 224 ∧ ∀ x, lead.low.toNat ≤ x →
      x ≤ lead.high.toNat → 128 ≤ x ∧ x < 192 ∧ 32 ≤ lead.bits * 64 + x % 64 ∧
        lead.bits < 16 ∧ (lead.bits * 64 + x % 64 < 864 ∨ 896 ≤ lead.bits * 64 + x % 64)) ∨
    (lead.following = 3 ∧ b.toNat = lead.bits + 240 ∧ ∀ x, lead.low.toNat ≤ x →
      x ≤ lead.high.toNat → 128 ≤ x ∧ x < 192 ∧ 16 ≤ lead.bits * 64 + x % 64 ∧
        lead.bits * 64 + x % 64 < 272) := by
  have hb := b.toNat_lt
  rw [← UInt8.ofNat_toNat (x := b), Lead.of?_ofNat hb] at h
  split at h
  · cases h
  split at h
  · obtain rfl := Option.some.inj h
    refine .inl ⟨rfl, ?_, ?_, ?_, rfl, rfl⟩ <;> dsimp only <;> omega
  split at h
  · obtain rfl := Option.some.inj h
    refine .inr (.inl ⟨rfl, ?_, fun x (hlow : 160 ≤ x) (hhigh : x ≤ 191) => ?_⟩) <;>
      dsimp only <;> omega
  split at h
  · obtain rfl := Option.some.inj h
    refine .inr (.inl ⟨rfl, ?_, fun x (hlow : 128 ≤ x) (hhigh : x ≤ 159) => ?_⟩) <;>
      dsimp only <;> omega
  split at h
  · obtain rfl := Option.some.inj h
    refine .inr (.inl ⟨rfl, ?_, fun x (hlow : 128 ≤ x) (hhigh : x ≤ 191) => ?_⟩) <;>
      dsimp only <;> omega
  split at h
  · obtain rfl := Option.some.inj h
    refine .inr (.inr ⟨rfl, ?_, fun x (hlow : 144 ≤ x) (hhigh : x ≤ 191) => ?_⟩) <;>
      dsimp only <;> omega
  split at h
  · obtain rfl := Option.some.inj h
    refine .inr (.inr ⟨rfl, ?_, fun x (hlow : 128 ≤ x) (hhigh : x ≤ 143) => ?_⟩) <;>
      dsimp only <;> omega
  split at h
  · obtain rfl := Option.some.inj h
    refine .inr (.inr ⟨rfl, ?_, fun x (hlow : 128 ≤ x) (hhigh : x ≤ 191) => ?_⟩) <;>
      dsimp only <;> omega
  · cases h

/-- The octets of a character, by its number. -/
theorem utf8EncodeChar_ofNat (h : n < 0xD800 ∨ 0xDFFF < n ∧ n < 0x110000) :
    String.utf8EncodeChar (Char.ofNat n) =
      if n ≤ 127 then [UInt8.ofNat n]
      else if n ≤ 2047 then [UInt8.ofNat (n / 64 % 32 + 192), UInt8.ofNat (n % 64 + 128)]
      else if n ≤ 65535 then
        [UInt8.ofNat (n / 4096 % 16 + 224), UInt8.ofNat (n / 64 % 64 + 128),
          UInt8.ofNat (n % 64 + 128)]
      else
        [UInt8.ofNat (n / 262144 % 8 + 240), UInt8.ofNat (n / 4096 % 64 + 128),
          UInt8.ofNat (n / 64 % 64 + 128), UInt8.ofNat (n % 64 + 128)] := by
  have hval : (Char.ofNat n).val.toNat = n := by
    rw [Char.ofNat, dif_pos h]
    rfl
  rw [String.utf8EncodeChar.eq_1, hval]

/-- An octet is told by its number. -/
theorem ofNat_eq {m : Nat} (h : m = b.toNat) : UInt8.ofNat m = b := by
  rw [h, UInt8.ofNat_toNat]

/-- A segment of several octets that is a character takes the octets of that character. -/
theorem follow_eq_char (hlead : Lead.of? b = some lead)
    (h : follow lead.bits lead.low lead.high lead.following seen rest = (.char c, rest')) :
    b :: rest = String.utf8EncodeChar c ++ rest' := by
  rcases Lead.cases_of? hlead with ⟨hn, hb, hmin, hmax, hlow, hhigh⟩ | ⟨hn, hb, hsecond⟩ |
    ⟨hn, hb, hsecond⟩
  · rw [hn, hlow, hhigh] at h
    obtain ⟨x, tail, rfl, hxl : 128 ≤ x.toNat, hxh : x.toNat ≤ 191, h⟩ := follow_succ_eq_char h
    cases h
    rw [utf8EncodeChar_ofNat (by omega), if_neg (by omega), if_pos (by omega),
      ofNat_eq (b := b) (by omega), ofNat_eq (b := x) (by omega)]
    rfl
  · rw [hn] at h
    obtain ⟨x, tail, rfl, hxl, hxh, h⟩ := follow_succ_eq_char h
    obtain ⟨y, tail, rfl, hyl : 128 ≤ y.toNat, hyh : y.toNat ≤ 191, h⟩ := follow_succ_eq_char h
    obtain ⟨hx, hx', hmin, hmax, hsurrogates⟩ := hsecond x.toNat hxl hxh
    cases h
    rw [utf8EncodeChar_ofNat (by omega), if_neg (by omega), if_neg (by omega), if_pos (by omega),
      ofNat_eq (b := b) (by omega), ofNat_eq (b := x) (by omega), ofNat_eq (b := y) (by omega)]
    rfl
  · rw [hn] at h
    obtain ⟨x, tail, rfl, hxl, hxh, h⟩ := follow_succ_eq_char h
    obtain ⟨y, tail, rfl, hyl : 128 ≤ y.toNat, hyh : y.toNat ≤ 191, h⟩ := follow_succ_eq_char h
    obtain ⟨z, tail, rfl, hzl : 128 ≤ z.toNat, hzh : z.toNat ≤ 191, h⟩ := follow_succ_eq_char h
    obtain ⟨hx, hx', hmin, hmax⟩ := hsecond x.toNat hxl hxh
    cases h
    rw [utf8EncodeChar_ofNat (by omega), if_neg (by omega), if_neg (by omega), if_neg (by omega),
      ofNat_eq (b := b) (by omega), ofNat_eq (b := x) (by omega), ofNat_eq (b := y) (by omega),
      ofNat_eq (b := z) (by omega)]
    rfl

/-- A segment that is a character takes the octets of that character. -/
theorem next_eq_char (h : next b rest = (.char c, rest')) :
    b :: rest = String.utf8EncodeChar c ++ rest' := by
  unfold next at h
  split at h
  · next hb =>
    have hb : b.toNat < 128 := hb
    cases h
    rw [utf8EncodeChar_ofNat (by omega), if_pos (by omega), UInt8.ofNat_toNat]
    rfl
  · split at h
    · cases h
    · next hlead => exact follow_eq_char hlead h

end Converse

/-- A byte string whose segments are characters has their octets. -/
theorem flatMap_of_segments {bs : Bytes} {cs : List Char} (h : segments bs = cs.map .char) :
    cs.flatMap String.utf8EncodeChar = bs := by
  induction cs generalizing bs with
  | nil =>
    cases bs with
    | nil => rfl
    | cons b rest =>
      rw [segments_cons] at h
      cases h
  | cons c cs ih =>
    cases bs with
    | nil =>
      rw [segments_nil] at h
      cases h
    | cons b rest =>
      rw [segments_cons, List.map_cons] at h
      injection h with hhead htail
      rw [List.flatMap_cons, ih htail]
      exact (next_eq_char (Prod.ext hhead rfl)).symm

theorem segments_of_charsFrom {start : Nat} {done cs : List Char} {segs : List Segment}
    (h : charsFrom start done segs = .ok cs) : ∃ cs', segs = cs'.map .char ∧
      cs = done.reverse ++ cs' := by
  induction segs generalizing start done with
  | nil =>
    cases h
    exact ⟨[], rfl, (List.append_nil _).symm⟩
  | cons seg segs ih =>
    cases seg with
    | char c =>
      obtain ⟨cs', rfl, rfl⟩ := ih h
      exact ⟨c :: cs', rfl, by rw [List.reverse_cons, List.append_assoc]; rfl⟩
    | illFormed n => cases h
    | cutOff n => cases h

/-- **What is read as a text are the octets of that text.** -/
theorem decode_eq_ok_iff {bs : Bytes} {s : String} : decode bs = .ok s ↔ encode s = bs := by
  constructor
  · intro h
    unfold decode at h
    cases hchars : charsFrom 0 [] (segments bs) with
    | error e =>
      rw [hchars] at h
      cases h
    | ok cs =>
      rw [hchars] at h
      cases h
      obtain ⟨cs', hsegments, rfl⟩ := segments_of_charsFrom hchars
      rw [encode, String.toList_ofList]
      exact flatMap_of_segments hsegments
  · rintro rfl
    exact decode_encode s

/-- The octets are those of a text. -/
def IsText (bs : Bytes) : Prop := ∃ s, encode s = bs

end StoreClient.Utf8
