import Mathlib
import CellFormula.Binary

/-!
# The parts of a float

A float is a sign, an exponent and a mantissa in 64 bits. `Float.Model.unpack` takes it apart, into
an infinity, a zero, no number, or a mantissa times a power of two; `Float.Model.pack` puts such
parts together again.

Main statements: `ofParts_parts`, taking apart and putting together gives the same float;
`parts_ofParts_finite`, the other way around for legal parts; `of_parts_finite`, the parts of a
float are legal and `Binary.ofFloat` reads the same.
-/

namespace CellFormula

open Float.Model UnpackedFloat

/-! ## Fields -/

section Fields

variable {s : Sign} {e : BitVec 11} {m : BitVec 52}

/-- A word with these fields. -/
abbrev word (s : Sign) (e : BitVec 11) (m : BitVec 52) : BitVec 64 :=
  packComponents .binary64 s e m

theorem ofBitVec_toBitVec (s : Sign) : Sign.ofBitVec s.toBitVec = s := by
  cases s <;> rfl

theorem toNat_fields (b : BitVec 64) :
    b.toNat = (@unpackSign .binary64 b).toNat * 2 ^ 63 +
      (@unpackExponent .binary64 b).toNat * 2 ^ 52 +
      (@unpackMantissa .binary64 b).toNat := by
  have := b.isLt
  simp [unpackSign, unpackExponent, unpackMantissa, BitVec.extractLsb, BitVec.extractLsb'_toNat,
    Nat.shiftRight_eq_div_pow]
  omega

theorem toNat_word (s : Sign) (e : BitVec 11) (m : BitVec 52) :
    (word s e m).toNat = s.toBitVec.toNat * 2 ^ 63 + e.toNat * 2 ^ 52 + m.toNat := by
  have mantissa : m.toNat < 2 ^ 52 := m.isLt
  have exponent : e.toNat < 2 ^ 11 := e.isLt
  rw [word, packComponents, BitVec.toNat_append, ← Nat.shiftLeft_add_eq_or_of_lt mantissa,
    BitVec.toNat_append, ← Nat.shiftLeft_add_eq_or_of_lt exponent]
  simp only [Nat.shiftLeft_eq]
  omega

theorem unpackSign_word : @unpackSign .binary64 (word s e m) = s.toBitVec := by
  have fields := toNat_fields (word s e m)
  rw [toNat_word, unpackExponent_packComponents, unpackMantissa_packComponents] at fields
  apply BitVec.eq_of_toNat_eq
  omega

/-- Every word has fields. -/
theorem exists_eq_word (b : BitVec 64) : ∃ s e m, b = word s e m := by
  refine ⟨Sign.ofBitVec (@unpackSign .binary64 b), @unpackExponent .binary64 b,
    @unpackMantissa .binary64 b, ?_⟩
  have same : ∀ s : BitVec 1, (Sign.ofBitVec s).toBitVec = s := by decide
  apply BitVec.eq_of_toNat_eq
  rw [toNat_word, same, ← toNat_fields]

/-- The four shapes of words, by their exponents. -/
inductive Shape : BitVec 64 → Prop
  | top (s : Sign) (m : BitVec 52) : Shape (word s (-1#11) m)
  | zero (s : Sign) : Shape (word s 0#11 0#52)
  | subnormal (s : Sign) (m : BitVec 52) (pos : 0 < m.toNat) : Shape (word s 0#11 m)
  | normal (s : Sign) (e : BitVec 11) (m : BitVec 52) (low : 0 < e.toNat) (high : e.toNat < 2047) :
      Shape (word s e m)

theorem shape (b : BitVec 64) : Shape b := by
  obtain ⟨s, e, m, rfl⟩ := exists_eq_word b
  have field : e.toNat < 2 ^ 11 := e.isLt
  by_cases top : e.toNat = 2047
  · obtain rfl : e = -1#11 := BitVec.eq_of_toNat_eq top
    exact .top s m
  · by_cases bottom : e.toNat = 0
    · obtain rfl : e = 0#11 := BitVec.eq_of_toNat_eq bottom
      by_cases empty : m.toNat = 0
      · obtain rfl : m = 0#52 := BitVec.eq_of_toNat_eq empty
        exact .zero s
      · exact .subnormal s m (Nat.pos_of_ne_zero empty)
    · exact .normal s e m (Nat.pos_of_ne_zero bottom) (by omega)

theorem unpack_word_top : UnpackedFloat.unpack .binary64 (word s (-1#11) m) =
    if m = 0#52 then .infinity s else .notANumber := by
  simp only [UnpackedFloat.unpack, unpackExponent_packComponents, unpackMantissa_packComponents,
    unpackSign_word, ofBitVec_toBitVec]
  rfl

theorem unpack_word_zero : UnpackedFloat.unpack .binary64 (word s 0#11 0#52) = .zero s := by
  simp only [UnpackedFloat.unpack, unpackExponent_packComponents, unpackMantissa_packComponents,
    unpackSign_word, ofBitVec_toBitVec]
  rfl

theorem unpack_word_subnormal (pos : 0 < m.toNat) :
    UnpackedFloat.unpack .binary64 (word s 0#11 m) = .finite s m.toNat (-1074) pos := by
  have nonzero : m ≠ 0#52 := by
    rintro rfl
    exact absurd pos (by decide)
  simp only [UnpackedFloat.unpack, unpackExponent_packComponents, unpackMantissa_packComponents,
    unpackSign_word, ofBitVec_toBitVec]
  rw [if_neg (by decide), if_pos trivial, dif_neg nonzero]
  rfl

theorem unpack_word_normal (low : 0 < e.toNat) (high : e.toNat < 2047) :
    UnpackedFloat.unpack .binary64 (word s e m) =
      .finite s (2 ^ 52 + m.toNat) (e.toNat - 1075) (by omega) := by
  have notTop : e ≠ -1#11 := by
    rintro rfl
    exact absurd high (by decide)
  have notBottom : e ≠ 0#11 := by
    rintro rfl
    exact absurd low (by decide)
  have mantissa : (1#1 ++ m).toNat = 2 ^ 52 + m.toNat := by
    rw [BitVec.toNat_append, ← Nat.shiftLeft_add_eq_or_of_lt m.isLt]
    rfl
  simp only [UnpackedFloat.unpack, unpackExponent_packComponents, unpackMantissa_packComponents,
    unpackSign_word, ofBitVec_toBitVec]
  rw [if_neg notTop, if_neg notBottom]
  simp only [mantissa]
  rfl

end Fields

/-! ## Packing -/

/-- The mantissas and exponents of nonzero finite floats. A mantissa has 53 binary digits; below the
least exponent there is none, so only there it may have fewer. -/
structure Legal (m : Nat) (e : Int) : Prop where
  pos : 0 < m
  short : m < 2 ^ 53
  least : -1074 ≤ e
  most : e ≤ 971
  full : e ≠ -1074 → 2 ^ 52 ≤ m

section Packing

variable {s : Sign} {m : Nat} {e : Int} {pos : 0 < m}

theorem log2_eq_of_full (full : 2 ^ 52 ≤ m) (short : m < 2 ^ 53) : m.log2 = 52 :=
  (Nat.log2_eq_iff (by omega)).2 ⟨full, short⟩

theorem pack_normal (full : 2 ^ 52 ≤ m) (short : m < 2 ^ 53) (least : -1074 ≤ e) (most : e ≤ 971) :
    UnpackedFloat.pack .binary64 (.finite s m e pos) =
      word s (BitVec.ofNat 11 (e + 1075).toNat) (BitVec.ofNat 52 m) := by
  have log := log2_eq_of_full full short
  have biased :
      (e + (Format.binary64.exponentBias : Int) + (52 : Nat)).toNat = (e + 1075).toNat := by
    show (e + (1023 : Int) + 52).toNat = (e + 1075).toNat
    rw [Int.add_assoc]
    rfl
  rw [UnpackedFloat.pack]
  simp only [biased]
  rw [if_neg, if_pos]
  · show m.log2 + 1 = 53
    omega
  · show ¬ 2 ^ 11 ≤ (e + 1075).toNat + 1
    omega

theorem pack_subnormal (short : m < 2 ^ 52) :
    UnpackedFloat.pack .binary64 (.finite s m (-1074) pos) = word s 0#11 (BitVec.ofNat 52 m) := by
  have log : m.log2 < 52 := (Nat.log2_lt (by omega)).2 short
  rw [UnpackedFloat.pack]
  simp only
  rw [if_neg, if_neg]
  · show ¬ m.log2 + 1 = 53
    omega
  · decide

theorem pack_overflow (beyond : 971 < e) :
    UnpackedFloat.pack .binary64 (.finite s m e pos) = word s (-1#11) 0#52 := by
  rw [UnpackedFloat.pack]
  simp only
  rw [if_pos]
  · rfl
  · show 2 ^ 11 ≤ (e + (1023 : Int) + 52).toNat + 1
    omega

end Packing

theorem pack_unpack_word {b : BitVec 64} (valid : Format.binary64.Valid b) :
    UnpackedFloat.pack .binary64 (UnpackedFloat.unpack .binary64 b) = b := by
  cases shape b with
  | top s m =>
    rw [unpack_word_top]
    by_cases empty : m = 0#52
    · subst empty
      rfl
    · rw [if_neg empty]
      refine (valid.eq_packedNaN unpackExponent_packComponents ?_).symm
      rwa [unpackMantissa_packComponents]
  | zero s =>
    rw [unpack_word_zero]
    rfl
  | subnormal s m pos =>
    rw [unpack_word_subnormal pos, pack_subnormal m.isLt, BitVec.ofNat_toNat, BitVec.setWidth_eq]
  | normal s e m low high =>
    have short : m.toNat < 2 ^ 52 := m.isLt
    have exponent : BitVec.ofNat 11 ((e.toNat : Int) - 1075 + 1075).toNat = e := by
      apply BitVec.eq_of_toNat_eq
      rw [BitVec.toNat_ofNat]
      omega
    have mantissa : BitVec.ofNat 52 (2 ^ 52 + m.toNat) = m := by
      apply BitVec.eq_of_toNat_eq
      rw [BitVec.toNat_ofNat]
      omega
    rw [unpack_word_normal low high, pack_normal (by omega) (by omega) (by omega) (by omega),
      exponent, mantissa]

theorem unpack_pack_word {s : Sign} {m : Nat} {e : Int} (legal : Legal m e) :
    UnpackedFloat.unpack .binary64 (UnpackedFloat.pack .binary64 (.finite s m e legal.pos)) =
      .finite s m e legal.pos := by
  obtain ⟨pos, short, least, most, full⟩ := legal
  by_cases normal : 2 ^ 52 ≤ m
  · have exponent : (BitVec.ofNat 11 (e + 1075).toNat).toNat = (e + 1075).toNat := by
      rw [BitVec.toNat_ofNat]
      omega
    have mantissa : (BitVec.ofNat 52 m).toNat = m - 2 ^ 52 := by
      rw [BitVec.toNat_ofNat]
      omega
    rw [pack_normal normal short least most, unpack_word_normal (by omega) (by omega)]
    congr 1
    · omega
    · omega
  · obtain rfl : e = -1074 := Decidable.byContradiction fun other => normal (full other)
    have mantissa : (BitVec.ofNat 52 m).toNat = m := by
      rw [BitVec.toNat_ofNat]
      omega
    rw [pack_subnormal (by omega), unpack_word_subnormal (by omega)]
    congr 1

/-! ## Parts -/

/-- The parts of a float. -/
def parts (x : Float) : UnpackedFloat := x.toModel.unpack

/-- The float with these parts. -/
def ofParts (u : UnpackedFloat) : Float := .ofModel (.pack u)

/-- The word of a float. -/
theorem parts_eq (x : Float) : parts x = UnpackedFloat.unpack .binary64 x.toBits.toBitVec := rfl

/-- A float is determined by its parts. -/
@[simp] theorem ofParts_parts (x : Float) : ofParts (parts x) = x := by
  have same := pack_unpack_word x.toModel.valid
  obtain ⟨⟨⟨bits⟩, valid⟩⟩ := x
  simp only [ofParts, parts, Float.Model.pack, Float.Model.unpack] at same ⊢
  congr

theorem eq_of_parts_eq {x y : Float} (same : parts x = parts y) : x = y := by
  rw [← ofParts_parts x, same, ofParts_parts]

theorem parts_ofParts_finite {s : Sign} {m : Nat} {e : Int} (legal : Legal m e) :
    parts (ofParts (.finite s m e legal.pos)) = .finite s m e legal.pos :=
  unpack_pack_word legal

theorem parts_ofParts_zero (s : Sign) : parts (ofParts (.zero s)) = .zero s := by
  cases s <;> rfl

theorem parts_ofParts_infinity (s : Sign) : parts (ofParts (.infinity s)) = .infinity s := by
  cases s <;> rfl

theorem ofParts_finite_overflow {s : Sign} {m : Nat} {e : Int} {pos : 0 < m} (beyond : 971 < e) :
    ofParts (.finite s m e pos) = ofParts (.infinity s) := by
  simp only [ofParts, Float.Model.pack, pack_overflow beyond]
  rfl

/-- Whether the parts have a negative sign. -/
def signed : UnpackedFloat → Bool
  | .infinity .negative | .zero .negative | .finite .negative _ _ _ => true
  | _ => false

section Words

variable {x : Float} {s : Sign} {e : BitVec 11} {m : BitVec 52}

theorem toNat_toBits (bits : x.toBits.toBitVec = word s e m) :
    x.toBits.toNat = s.toBitVec.toNat * 2 ^ 63 + e.toNat * 2 ^ 52 + m.toNat := by
  rw [← toNat_word, ← bits]
  rfl

theorem isNegative_word (bits : x.toBits.toBitVec = word s e m) :
    isNegative x = true ↔ s = .negative := by
  have mantissa : m.toNat < 2 ^ 52 := m.isLt
  have exponent : e.toNat < 2 ^ 11 := e.isLt
  have top : (x.toBits >>> 63).toNat = s.toBitVec.toNat := by
    rw [UInt64.toNat_shiftRight, toNat_toBits bits]
    show (_ : Nat) >>> 63 = _
    rw [Nat.shiftRight_eq_div_pow]
    omega
  rw [isNegative, decide_eq_true_eq, ← UInt64.toNat_inj, top]
  cases s with
  | negative => exact iff_of_true rfl rfl
  | positive => exact iff_of_false (by decide) nofun

theorem ofFloat_word (bits : x.toBits.toBitVec = word s e m) :
    Binary.ofFloat x =
      if e.toNat = 0 then ⟨m.toNat, -1074⟩ else ⟨2 ^ 52 + m.toNat, e.toNat - 1075⟩ := by
  have mantissa : m.toNat < 2 ^ 52 := m.isLt
  have exponent : e.toNat < 2 ^ 11 := e.isLt
  have biased : ((x.toBits >>> 52) &&& 0x7FF).toNat = e.toNat := by
    rw [UInt64.toNat_and, UInt64.toNat_shiftRight, toNat_toBits bits]
    show ((_ : Nat) >>> 52) &&& (2 ^ 11 - 1) = _
    rw [Nat.and_two_pow_sub_one_eq_mod, Nat.shiftRight_eq_div_pow]
    omega
  have fraction : (x.toBits &&& 0xFFFFFFFFFFFFF).toNat = m.toNat := by
    rw [UInt64.toNat_and, toNat_toBits bits]
    show _ &&& (2 ^ 52 - 1) = _
    rw [Nat.and_two_pow_sub_one_eq_mod]
    omega
  have power : 0x10000000000000 = 2 ^ 52 := by norm_num
  unfold Binary.ofFloat
  simp only [biased, fraction, power]

end Words

/-- The sign of a float is that of its parts. -/
theorem isNegative_eq (x : Float) : isNegative x = signed (parts x) := by
  have valid : Format.binary64.Valid x.toBits.toBitVec := x.toModel.valid
  rw [parts_eq]
  generalize bits : x.toBits.toBitVec = b at valid
  cases shape b with
  | top s m =>
    have sign := isNegative_word bits
    rw [unpack_word_top]
    split
    · cases s <;> simpa [signed] using sign
    · next filled =>
      -- there is one word for no number, and it has no sign
      have canonical := valid.eq_packedNaN unpackExponent_packComponents
        (by rwa [unpackMantissa_packComponents])
      have positive : s = .positive := by
        have same := congrArg (@unpackSign .binary64) canonical
        rw [unpackSign_word, packedNaN, unpackSign_word] at same
        cases s
        · cases same
        · rfl
      simpa [signed, positive] using sign
  | zero s =>
    have sign := isNegative_word bits
    rw [unpack_word_zero]
    cases s <;> simpa [signed] using sign
  | subnormal s m pos =>
    have sign := isNegative_word bits
    rw [unpack_word_subnormal pos]
    cases s <;> simpa [signed] using sign
  | normal s e m low high =>
    have sign := isNegative_word bits
    rw [unpack_word_normal low high]
    cases s <;> simpa [signed] using sign

/-- The parts of finite floats are legal, and they are the magnitude that is read off the bits. -/
theorem of_parts_finite {x : Float} {s : Sign} {m : Nat} {e : Int} {pos : 0 < m}
    (found : parts x = .finite s m e pos) : Legal m e ∧ Binary.ofFloat x = ⟨m, e⟩ := by
  rw [parts_eq] at found
  generalize bits : x.toBits.toBitVec = b at found
  cases shape b with
  | top s m =>
    rw [unpack_word_top] at found
    split at found <;> cases found
  | zero s =>
    rw [unpack_word_zero] at found
    cases found
  | subnormal s m pos =>
    have short : m.toNat < 2 ^ 52 := m.isLt
    rw [unpack_word_subnormal pos] at found
    cases found
    exact ⟨⟨pos, by omega, by omega, by omega, fun other => absurd rfl other⟩, ofFloat_word bits⟩
  | normal s e m low high =>
    have short : m.toNat < 2 ^ 52 := m.isLt
    rw [unpack_word_normal low high] at found
    cases found
    refine ⟨⟨pos, by omega, by omega, by omega, fun _ => by omega⟩, ?_⟩
    rw [ofFloat_word bits, if_neg (Nat.ne_of_gt low)]

theorem ofFloat_of_zero {x : Float} {s : Sign} (found : parts x = .zero s) :
    Binary.ofFloat x = ⟨0, -1074⟩ := by
  rw [parts_eq] at found
  generalize bits : x.toBits.toBitVec = b at found
  cases shape b with
  | top s m =>
    rw [unpack_word_top] at found
    split at found <;> cases found
  | zero s => exact ofFloat_word bits
  | subnormal s m pos =>
    rw [unpack_word_subnormal pos] at found
    cases found
  | normal s e m low high =>
    rw [unpack_word_normal low high] at found
    cases found

end CellFormula
