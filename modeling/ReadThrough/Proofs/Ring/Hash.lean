import Mathlib.Algebra.Group.Units.Basic
import Mathlib.Data.Int.GCD
import Mathlib.Data.LawfulXor.Basic
import Mathlib.Data.Nat.Prime.Basic
import Mathlib.Data.UInt
import ReadThrough.Ring.Hash

/-!
# Separation by the default hash

No step of the default hash loses anything. Exclusive or, rotation and multiplication by an odd
word are bijections of words, so the finaliser is one (`finalise_bijective`). In the pass over the
bytes, two running words that differ are never made equal by absorbing the same bytes
(`foldl_absorb_injective`), and one running word is never made equal by absorbing different ones
(`absorb_injective`). Strings of one length that differ at one position only therefore have
different hashes, whatever comes before and after that position (`single_changes_separated`).
-/

namespace ReadThrough

namespace Ring

/-! ## Steps on words -/

/-- The high bits that a fold takes to the low ones are untouched by it, so that folding again
undoes it. -/
theorem foldHigh_involutive : Function.Involutive foldHigh := by
  intro word
  have hgone : word >>> 33 >>> 33 = 0 := by
    rw [← UInt64.toBitVec_inj]
    exact (BitVec.shiftRight_add word.toBitVec 33 33).symm.trans
      (BitVec.ushiftRight_eq_zero (by decide))
  calc foldHigh (foldHigh word)
      = (word ^^^ word >>> 33) ^^^ (word >>> 33 ^^^ word >>> 33 >>> 33) := by
        rw [foldHigh, foldHigh, UInt64.shiftRight_xor]
    _ = word := by rw [hgone, xor_zero, xor_cancel_right]

/-- A word is rotated like the vector of its bits. -/
theorem toBitVec_rotate5 (word : UInt64) :
    (rotate5 word).toBitVec = word.toBitVec.rotateLeft 5 :=
  rfl

theorem rotateRight_rotateLeft {width : Nat} (bits : BitVec width) (amount : Nat) :
    (bits.rotateLeft amount).rotateRight amount = bits := by
  ext i hi
  have hlt : amount % width < width := Nat.mod_lt _ (by omega)
  rw [BitVec.getElem_rotateRight]
  split
  case isTrue hstays =>
    rw [BitVec.getElem_rotateLeft, dif_neg (by omega)]
    congr 1
    omega
  case isFalse hwraps =>
    rw [BitVec.getElem_rotateLeft, dif_pos (by omega)]
    congr 1
    omega

theorem rotate5_injective : Function.Injective rotate5 := by
  intro first second h
  have hback := congrArg (fun word ↦ word.toBitVec.rotateRight 5) h
  simp only [toBitVec_rotate5, rotateRight_rotateLeft] at hback
  exact UInt64.toBitVec_inj.1 hback

/-- An odd word has an inverse, since it has no factor in common with the number of words. -/
theorem isUnit_of_odd {factor : UInt64} (h : Odd factor.toNat) : IsUnit factor := by
  have hcoprime : factor.toNat.Coprime (2 ^ 64) := h.coprime_two_right.pow_right 64
  obtain ⟨inverse, -, hinverse⟩ := Nat.exists_mul_mod_eq_one_of_coprime hcoprime (by decide)
  refine .of_mul_eq_one (UInt64.ofNat inverse) ?_
  rw [← UInt64.toNat_inj, UInt64.toNat_mul, UInt64.toNat_ofNat', Nat.mul_mod_mod, hinverse]
  rfl

/-! ## The finaliser -/

/-- The finaliser permutes the words. -/
theorem finalise_bijective : Function.Bijective finalise := by
  have hfold : Function.Bijective foldHigh := foldHigh_involutive.bijective
  have hfirst : Function.Bijective fun word : UInt64 ↦ word * 0xff51afd7ed558ccd :=
    IsUnit.isUnit_iff_mulRight_bijective.1 (isUnit_of_odd (by decide))
  have hsecond : Function.Bijective fun word : UInt64 ↦ word * 0xc4ceb9fe1a85ec53 :=
    IsUnit.isUnit_iff_mulRight_bijective.1 (isUnit_of_odd (by decide))
  exact hfold.comp (hsecond.comp (hfold.comp (hfirst.comp hfold)))

/-- Strings of one length collide only in the pass over their bytes. -/
theorem defaultHash_eq_iff {first second : List UInt8} (hlength : first.length = second.length) :
    defaultHash first = defaultHash second ↔ scramble first = scramble second := by
  rw [defaultHash, defaultHash, hlength, finalise_bijective.injective.eq_iff, UInt64.xor_left_inj]

/-! ## The pass over the bytes -/

theorem isUnit_seed : IsUnit seed :=
  isUnit_of_odd (by decide)

/-- Different running words stay different when they absorb the same byte. -/
theorem absorb_left_injective (byte : UInt8) : Function.Injective (absorb · byte) :=
  isUnit_seed.mul_left_injective.comp
    ((xor_left_involutive byte.toUInt64).injective.comp rotate5_injective)

/-- A running word becomes different ones when it absorbs different bytes. -/
theorem absorb_injective (word : UInt64) : Function.Injective (absorb word) := by
  have hbyte : Function.Injective UInt8.toUInt64 := fun _ _ ↦ UInt8.toUInt64_inj.1
  exact isUnit_seed.mul_left_injective.comp
    ((xor_right_involutive (rotate5 word)).injective.comp hbyte)

/-- Different running words stay different under the same bytes, however many there are. -/
theorem foldl_absorb_injective (bytes : List UInt8) :
    Function.Injective fun word ↦ bytes.foldl absorb word := by
  induction bytes with
  | nil => exact Function.injective_id
  | cons byte rest ih => exact ih.comp (absorb_left_injective byte)

/-- A changed byte changes the outcome of the pass, whatever stands before and after it. -/
theorem scramble_ne_of_byte_ne {x y : UInt8} (hne : x ≠ y) (front back : List UInt8) :
    scramble (front ++ x :: back) ≠ scramble (front ++ y :: back) := by
  intro h
  rw [scramble, scramble, List.foldl_append, List.foldl_append] at h
  -- the bytes in front leave one running word, and those behind are undone
  exact hne (absorb_injective _ (foldl_absorb_injective back h))

/-! ## Changes at one position -/

/-- Lists of one length that differ at one position only agree before and after it. -/
theorem exists_append_of_existsUnique_ne {α : Type} {first second : List α}
    (hlength : first.length = second.length)
    (hone : ∃! position : Nat, first[position]? ≠ second[position]?) :
    ∃ front x y back, x ≠ y ∧ first = front ++ x :: back ∧ second = front ++ y :: back := by
  obtain ⟨position, hne, honly⟩ := hone
  have hsame : ∀ other, other ≠ position → first[other]? = second[other]? :=
    fun other hother ↦ by_contra fun h ↦ hother (honly other h)
  have hfirst : position < first.length := by
    by_contra hge
    exact hne (by rw [List.getElem?_eq_none (by omega), List.getElem?_eq_none (by omega)])
  have hsecond : position < second.length := hlength ▸ hfirst
  have hfront : first.take position = second.take position := by
    refine List.ext_getElem? fun other ↦ ?_
    rw [List.getElem?_take, List.getElem?_take]
    split
    · exact hsame other (by omega)
    · rfl
  have hback : first.drop (position + 1) = second.drop (position + 1) := by
    refine List.ext_getElem? fun other ↦ ?_
    rw [List.getElem?_drop, List.getElem?_drop]
    exact hsame _ (by omega)
  refine ⟨first.take position, first[position], second[position], first.drop (position + 1),
    ?_, ?_, ?_⟩
  · simpa [hfirst, hsecond] using hne
  · rw [List.getElem_cons_drop, List.take_append_drop]
  · rw [hfront, hback, List.getElem_cons_drop, List.take_append_drop]

/-- The finaliser is a bijection of words, and the hash tells apart any two strings of one length
that differ at exactly one position. -/
theorem single_changes_separated : Function.Bijective finalise ∧
    ∀ first second : List UInt8, first.length = second.length →
      (∃! position : Nat, first[position]? ≠ second[position]?) →
        defaultHash first ≠ defaultHash second := by
  refine ⟨finalise_bijective, fun first second hlength hone ↦ ?_⟩
  rw [Ne, defaultHash_eq_iff hlength]
  obtain ⟨front, x, y, back, hne, rfl, rfl⟩ := exists_append_of_existsUnique_ne hlength hone
  exact scramble_ne_of_byte_ne hne front back

/-- The bytes of `10a` and `19a`, the labels of two replicas of one member, differ in the middle. -/
theorem single_changes_separated_labels :
    ([0x31, 0x30, 0x61] : List UInt8).length = ([0x31, 0x39, 0x61] : List UInt8).length ∧
    (∃! position : Nat,
      ([0x31, 0x30, 0x61] : List UInt8)[position]? ≠ [0x31, 0x39, 0x61][position]?) ∧
    defaultHash [0x31, 0x30, 0x61] ≠ defaultHash [0x31, 0x39, 0x61] := by
  have hone : ∃! position : Nat,
      ([0x31, 0x30, 0x61] : List UInt8)[position]? ≠ [0x31, 0x39, 0x61][position]? := by
    refine ⟨1, by decide, fun position hne ↦ ?_⟩
    rcases position with _ | _ | position
    · exact absurd rfl hne
    · rfl
    · exact absurd rfl hne
  exact ⟨rfl, hone, single_changes_separated.2 _ _ rfl hone⟩

end Ring

end ReadThrough
