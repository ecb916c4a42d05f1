-- SUMMARY: The checksum of packets without encryption.
import ZprCore.Fastpath.Transit

/-!
# Null encryption

`encrypt_null` appends the Internet checksum of what is behind the ZPI byte, and `decrypt_null`
takes the sum over all of it, the checksum included. The words of the two sums start at the same
byte, so the two bytes of the checksum are the halves of two different words if the packet has an
odd length; the sender swaps them.
-/

namespace ZprCore.Fastpath

open ZprCore.Flow

/-! ## Ones' complement sums -/

/-- The sum of two 16-bit words, with the carry added at the other end. -/
def onesAdd (x y : Nat) : Nat := (x + y) % 65536 + (x + y) / 65536

/-- The big-endian words, the last of them padded. -/
def words : Bytes → List Nat
  | [] => []
  | [a] => [a.toNat * 256]
  | a :: b :: rest => (a.toNat * 256 + b.toNat) :: words rest

def onesSum (b : Bytes) : Nat := (words b).foldr onesAdd 0

/-- The second of the two zeros of the ones' complement. -/
def negativeZero : Nat := 0xffff

/-- `ip4sum::checksum` is the Internet checksum. -/
def InternetChecksum (sums : Checksums) : Prop :=
  ∀ b, (sums.ip4sum b).toNat = negativeZero - onesSum b

/-- What is left of a sum after all its carries are added at the other end. -/
def folded (sum : Nat) : Nat := if sum = 0 then 0 else (sum - 1) % 65535 + 1

theorem onesAdd_folded {x : Nat} (hx : x ≤ 65535) (sum : Nat) :
    onesAdd x (folded sum) = folded (x + sum) := by
  unfold onesAdd folded
  split <;> split <;> omega

theorem onesSum_eq (b : Bytes) : onesSum b = folded (wordSum b) := by
  fun_induction wordSum b with
  | case1 => rfl
  | case2 a =>
    have ha := a.toNat_lt
    have hfold := onesAdd_folded (show a.toNat * 256 ≤ 65535 by omega) 0
    rwa [Nat.add_zero] at hfold
  | case3 a b rest ih =>
    have ha := a.toNat_lt
    have hb := b.toNat_lt
    have hcons : onesSum (a :: b :: rest) = onesAdd (a.toNat * 256 + b.toNat) (onesSum rest) := rfl
    rw [hcons, ih, onesAdd_folded (by omega)]

theorem internetChecksum_internet : InternetChecksum .internet := by
  intro b
  have hle : negativeZero - onesSum b < 65536 := by unfold negativeZero; omega
  rw [onesSum_eq] at hle ⊢
  exact Nat.mod_eq_of_lt hle

/-! ## The checksum behind the body -/

theorem wordSum_append_putU16 (b : Bytes) (w : UInt16) :
    wordSum (b ++ if b.length % 2 ≠ 0 then (putU16 w).reverse else putU16 w) = wordSum b + w.toNat := by
  have hw : w.toNat = (w >>> 8).toUInt8.toNat * 256 + w.toUInt8.toNat := by
    have hlt := w.toNat_lt
    simp [Nat.shiftRight_eq_div_pow]
    omega
  fun_induction wordSum b with
  | case1 => simp only [List.length_nil, Nat.zero_mod, ne_eq, not_true, if_false, List.nil_append,
      putU16, wordSum, hw, Nat.add_zero, Nat.zero_add]
  | case2 a =>
    -- the first half of the checksum completes the last word
    rw [if_pos (show [a].length % 2 ≠ 0 from Nat.one_ne_zero)]
    simp only [putU16, List.reverse_cons, List.reverse_nil, List.nil_append, List.cons_append,
      wordSum, hw]
    omega
  | case3 a b rest ih =>
    have hlen : (a :: b :: rest).length % 2 = rest.length % 2 := Nat.add_mod_right rest.length 2
    rw [hlen, List.cons_append, List.cons_append, wordSum, ih]
    omega

theorem folded_complement (sum : Nat) : folded (sum + (negativeZero - folded sum)) = negativeZero := by
  unfold folded negativeZero
  split <;> split <;> omega

variable {Codec Codec' : Type} {sender : Cipher Codec} {receiver : Cipher Codec'}

theorem onesSum_checked (hs : InternetChecksum sender.sums) (b : Bytes) :
    onesSum (b ++ if b.length % 2 ≠ 0 then (putU16 (sender.sums.ip4sum b)).reverse
      else putU16 (sender.sums.ip4sum b)) = negativeZero := by
  rw [onesSum_eq, wordSum_append_putU16, hs b, onesSum_eq, folded_complement]

theorem ip4sum_eq_zero_iff {sums : Checksums} (hs : InternetChecksum sums) {b : Bytes} :
    sums.ip4sum b = 0 ↔ onesSum b = negativeZero := by
  have hle : onesSum b ≤ negativeZero := by
    rw [onesSum_eq, negativeZero, folded]
    split <;> omega
  rw [← UInt16.toNat_inj, hs b]
  exact ⟨fun h => le_antisymm hle (Nat.sub_eq_zero_iff_le.mp h), fun h => by simp [h]⟩

theorem decryptNull_eq_ok_iff (hr : InternetChecksum receiver.sums) {b b' : Bytes} :
    decryptNull receiver b = .ok b' ↔
      3 ≤ b.length ∧ onesSum (b.drop 1) = negativeZero ∧ b' = b.take (b.length - 2) := by
  unfold decryptNull
  split
  · next h => exact ⟨nofun, fun h' => absurd h'.1 (by omega)⟩
  next h =>
  split
  · next hsum => exact ⟨nofun, fun h' => absurd ((ip4sum_eq_zero_iff hr).mpr h'.2.1) hsum⟩
  next hsum =>
  have hzero := (ip4sum_eq_zero_iff hr).mp (not_not.mp hsum)
  exact ⟨fun h' => ⟨by omega, hzero, by cases h'; rfl⟩, fun h' => congrArg _ h'.2.2.symm⟩

/-- A packet passes its own check and comes back, and what passes the check has sum zero. -/
theorem null_checksum (hs : InternetChecksum sender.sums) (hr : InternetChecksum receiver.sums) :
    (∀ (zpi : UInt8) (b : Bytes) (tailroom : Nat), 2 ≤ tailroom →
      ∃ p, encryptNull sender ⟨zpi :: b, tailroom⟩ = some p ∧
        decryptNull receiver p.body = .ok (zpi :: b)) ∧
    ∀ b b', decryptNull receiver b = .ok b' → onesSum (b.drop 1) = negativeZero := by
  refine ⟨fun zpi b tailroom hroom => ?_, fun b b' h => ((decryptNull_eq_ok_iff hr).mp h).2.1⟩
  let csum := if b.length % 2 ≠ 0 then (putU16 (sender.sums.ip4sum b)).reverse
    else putU16 (sender.sums.ip4sum b)
  have hlen : csum.length = 2 := by
    unfold csum
    split <;> rfl
  refine ⟨⟨zpi :: b ++ csum, tailroom - csum.length⟩, if_neg (not_lt.mpr (hlen.trans_le hroom)), ?_⟩
  refine (decryptNull_eq_ok_iff hr).mpr ⟨by simp [hlen], onesSum_checked hs b, ?_⟩
  rw [List.length_append, hlen, Nat.add_sub_cancel, List.take_left']
  rfl

/-- The sample cipher with the real checksum, on a body of odd length. -/
def nullCipher (Codec : Type) : Cipher Codec :=
  ⟨fun _ _ => Vector.replicate 32 0, fun _ _ => none, .internet, .null⟩

theorem null_checksum_odd :
    ∃ p, encryptNull (nullCipher Unit) ⟨[0, 1, 2, 3], 2⟩ = some p ∧
      decryptNull (nullCipher Unit) p.body = .ok [0, 1, 2, 3] :=
  (null_checksum internetChecksum_internet internetChecksum_internet).1 0 [1, 2, 3] 2 le_rfl

end ZprCore.Fastpath
