/-!
# Numbers as bytes

The most significant byte comes first. The `count` bytes of a number give back its last
`8 * count` bits (`numberOfBytes_bytesOfNumber`), and as many bytes as there are give back the bytes.
-/

namespace StopArrivals

/-- The number that bytes spell. -/
def numberOfBytes (bytes : List UInt8) : Nat := bytes.foldl (fun n b => 256 * n + b.toNat) 0

/-- The last `count` bytes of a number. -/
def bytesOfNumber : Nat → Nat → List UInt8
  | 0, _ => []
  | count + 1, n => bytesOfNumber count (n / 256) ++ [UInt8.ofNat (n % 256)]

theorem length_bytesOfNumber : ∀ count n, (bytesOfNumber count n).length = count
  | 0, _ => rfl
  | count + 1, n => by simp [bytesOfNumber, length_bytesOfNumber count]

theorem numberOfBytes_bytesOfNumber :
    ∀ count n, numberOfBytes (bytesOfNumber count n) = n % 1 <<< (8 * count)
  | 0, n => by simp [bytesOfNumber, numberOfBytes, Nat.mod_one]
  | count + 1, n => by
    have ih := numberOfBytes_bytesOfNumber count (n / 256)
    simp only [numberOfBytes] at ih
    simp only [numberOfBytes, bytesOfNumber, List.foldl_append, ih, List.foldl_cons,
      List.foldl_nil, UInt8.toNat_ofNat']
    have hshift : 1 <<< (8 * (count + 1)) = 256 * 1 <<< (8 * count) := by
      rw [Nat.shiftLeft_eq, Nat.shiftLeft_eq, Nat.mul_succ, Nat.pow_add]
      omega
    rw [hshift, Nat.mod_mul]
    omega

theorem bytesOfNumber_numberOfBytes : ∀ {count : Nat} {bytes : List UInt8},
    bytes.length = count → bytesOfNumber count (numberOfBytes bytes) = bytes
  | 0, bytes, h => by rw [List.length_eq_zero_iff.mp h]; rfl
  | count + 1, bytes, h => by
    have hne : bytes ≠ [] := List.ne_nil_of_length_eq_add_one h
    obtain ⟨front, b, rfl⟩ : ∃ front b, bytes = front ++ [b] :=
      ⟨_, _, (List.dropLast_concat_getLast hne).symm⟩
    rw [List.length_append, List.length_singleton] at h
    have ih := bytesOfNumber_numberOfBytes (Nat.succ.inj h)
    have hspell : numberOfBytes (front ++ [b]) = 256 * numberOfBytes front + b.toNat := by
      rw [numberOfBytes, List.foldl_append]
      rfl
    have hb : b.toNat < 256 := b.toNat_lt
    have hdiv : (256 * numberOfBytes front + b.toNat) / 256 = numberOfBytes front := by omega
    have hmod : (256 * numberOfBytes front + b.toNat) % 256 = b.toNat := by omega
    rw [hspell, bytesOfNumber, hdiv, hmod, ih, UInt8.ofNat_toNat]

end StopArrivals
