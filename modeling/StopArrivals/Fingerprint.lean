import StopArrivals.Digest.BigEndian
import StopArrivals.Text.Hexadecimal

/-!
# Fingerprints

Sixteen bytes that stand for the identity of a stop visit. They are kept as one number of 128
bits, whose order is the order of the bytes from the first on.
-/

namespace StopArrivals

structure Fingerprint where
  bits : BitVec 128
deriving DecidableEq

namespace Fingerprint

def toNat (f : Fingerprint) : Nat := f.bits.toNat

instance : LE Fingerprint := ⟨fun f g => f.toNat ≤ g.toNat⟩

instance : LT Fingerprint := ⟨fun f g => f.toNat < g.toNat⟩

instance (f g : Fingerprint) : Decidable (f ≤ g) := inferInstanceAs (Decidable (f.toNat ≤ g.toNat))

instance (f g : Fingerprint) : Decidable (f < g) := inferInstanceAs (Decidable (f.toNat < g.toNat))

/-- Sixteen bytes; any other number of bytes is no fingerprint. -/
def ofBytes? (bytes : List UInt8) : Option Fingerprint :=
  if bytes.length = 16 then some ⟨BitVec.ofNat 128 (numberOfBytes bytes)⟩ else none

def bytes (f : Fingerprint) : List UInt8 := bytesOfNumber 16 f.toNat

/-- Thirty-two hexadecimal digits. -/
def hex (f : Fingerprint) : String := String.ofList (hexChars 32 f.toNat)

/-- How a fingerprint is shown to a person. -/
def shown (f : Fingerprint) : String := "Fingerprint(" ++ f.hex ++ ")"

/-! ## Order -/

theorem toNat_inj {f g : Fingerprint} : f.toNat = g.toNat ↔ f = g := by
  cases f; cases g
  simp [toNat, BitVec.toNat_inj]

theorem le_def {f g : Fingerprint} : f ≤ g ↔ f.toNat ≤ g.toNat := Iff.rfl

theorem lt_def {f g : Fingerprint} : f < g ↔ f.toNat < g.toNat := Iff.rfl

theorem le_refl (f : Fingerprint) : f ≤ f := Nat.le_refl _

theorem le_trans {f g h : Fingerprint} (hfg : f ≤ g) (hgh : g ≤ h) : f ≤ h :=
  Nat.le_trans hfg hgh

theorem le_total (f g : Fingerprint) : f ≤ g ∨ g ≤ f := Nat.le_total _ _

theorem le_antisymm {f g : Fingerprint} (hfg : f ≤ g) (hgf : g ≤ f) : f = g :=
  toNat_inj.mp (Nat.le_antisymm hfg hgf)

/-! ## Bytes -/

/-- The bytes of a fingerprint give it back. -/
theorem ofBytes?_bytes (f : Fingerprint) : ofBytes? f.bytes = some f := by
  have hlt : f.toNat < 1 <<< (8 * 16) := f.bits.isLt
  rw [ofBytes?, bytes, if_pos (length_bytesOfNumber 16 _), numberOfBytes_bytesOfNumber,
    Nat.mod_eq_of_lt hlt, toNat, BitVec.ofNat_toNat, BitVec.setWidth_eq]

/-- Any sixteen bytes are those of a fingerprint. -/
theorem exists_bytes_eq {bytes : List UInt8} (h : bytes.length = 16) :
    ∃ f : Fingerprint, f.bytes = bytes := by
  have hbytes := bytesOfNumber_numberOfBytes h
  have hlt : numberOfBytes bytes < 2 ^ 128 := by
    have hmod := numberOfBytes_bytesOfNumber 16 (numberOfBytes bytes)
    rw [hbytes, Nat.one_shiftLeft] at hmod
    rw [hmod]
    exact Nat.mod_lt _ (by decide)
  refine ⟨⟨BitVec.ofNat 128 (numberOfBytes bytes)⟩, ?_⟩
  rw [Fingerprint.bytes, toNat, BitVec.toNat_ofNat, Nat.mod_eq_of_lt hlt, hbytes]

end Fingerprint

end StopArrivals
