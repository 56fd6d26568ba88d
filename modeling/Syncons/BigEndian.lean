import Mathlib.Tactic.Ring
import Syncons.BitFields

/-! Big-endian numbers in bytes: the most significant byte comes first. A run of bytes of
a bit vector read as one number, and numbers written as bytes and read back. -/
namespace Syncons.BigEndian
open BitFields

abbrev Byte := BitVec 8

def toBytes : Nat → Nat → List Byte
  | 0,_ => []
  | k + 1,n => BitVec.ofNat 8 (n / 256 ^ k) :: toBytes k n

def fromBytes : List Byte → Nat
  | [] => 0
  | b :: rest => b.toNat * 256 ^ rest.length + fromBytes rest

variable {n o k j : Nat} {data : BitVec n} {bytes : List Byte}

theorem toBytesZero (k : Nat) : toBytes k 0 = List.replicate k 0 := by
  induction k with
  | zero => rfl
  | succ k ih =>
    rw [toBytes,Nat.zero_div,ih,List.replicate_succ]
    rfl

theorem fromBytesBound (bytes : List Byte) : fromBytes bytes < 256 ^ bytes.length := by
  induction bytes with
  | nil => simp [fromBytes]
  | cons b rest ih =>
    have small : b.toNat + 1 ≤ 256 := b.isLt
    have scaled := Nat.mul_le_mul_right (256 ^ rest.length) small
    rw [fromBytes,List.length_cons,Nat.pow_succ,Nat.mul_comm (256 ^ rest.length)]
    rw [Nat.add_mul,Nat.one_mul] at scaled
    omega

-- Higher digits of the number do not show in its low bytes.
theorem toBytesCarry (k m v : Nat) : toBytes k (m * 256 ^ k + v) = toBytes k v := by
  induction k generalizing m with
  | zero => rfl
  | succ k ih =>
    have split : m * 256 ^ (k + 1) + v = (m * 256) * 256 ^ k + v := by
      rw [Nat.pow_succ]
      ring
    have high : ((m * 256) * 256 ^ k + v) / 256 ^ k = m * 256 + v / 256 ^ k := by
      rw [Nat.add_comm,Nat.add_mul_div_right _ _ (Nat.pow_pos (by decide)),Nat.add_comm]
    have low : BitVec.ofNat 8 (m * 256 + v / 256 ^ k) = BitVec.ofNat 8 (v / 256 ^ k) := by
      apply BitVec.eq_of_toNat_eq
      simp
    rw [toBytes,toBytes,split,high,low,ih]

theorem toFromBytes (bytes : List Byte) : toBytes bytes.length (fromBytes bytes) = bytes := by
  induction bytes with
  | nil => rfl
  | cons b rest ih =>
    have low := fromBytesBound rest
    have high : (b.toNat * 256 ^ rest.length + fromBytes rest) / 256 ^ rest.length = b.toNat := by
      rw [Nat.add_comm,Nat.add_mul_div_right _ _ (Nat.pow_pos (by decide)),Nat.div_eq_of_lt low,Nat.zero_add]
    rw [List.length_cons,toBytes,fromBytes,high,toBytesCarry,ih,BitVec.ofNat_toNat,BitVec.setWidth_eq]

def octets (data : BitVec n) (o : Nat) : Nat → List Byte
  | 0 => []
  | k + 1 => byteAt data o :: octets data (o + 1) k

theorem octetsLength (data : BitVec n) (o k : Nat) : (octets data o k).length = k := by
  induction k generalizing o with
  | zero => rfl
  | succ k ih => rw [octets,List.length_cons,ih]

theorem octetsAppend (data : BitVec n) (o j k : Nat) :
    octets data o (j + k) = octets data o j ++ octets data (o + j) k := by
  induction j generalizing o with
  | zero => simp [octets]
  | succ j ih =>
    have place : o + (j + 1) = o + 1 + j := by omega
    rw [Nat.succ_add,octets,octets,ih (o + 1),place,List.cons_append]

theorem octetsTake (data : BitVec n) (o : Nat) (inside : j ≤ k) : (octets data o k).take j = octets data o j := by
  have split := octetsAppend data o j (k - j)
  rw [Nat.add_sub_cancel' inside] at split
  rw [split,List.take_left' (octetsLength ..)]

theorem octetsDrop (data : BitVec n) (o : Nat) (inside : j ≤ k) :
    (octets data o k).drop j = octets data (o + j) (k - j) := by
  have split := octetsAppend data o j (k - j)
  rw [Nat.add_sub_cancel' inside] at split
  rw [split,List.drop_left' (octetsLength ..)]

theorem oneMore (k : Nat) : 8 + 8 * k = 8 * (k + 1) := by omega

-- The same bytes as one word: the first of them is the highest.
def readBytes (data : BitVec n) (o : Nat) : (k : Nat) → BitVec (8 * k)
  | 0 => 0
  | k + 1 => (byteAt data o ++ readBytes data (o + 1) k).cast (oneMore k)

theorem readSwapped (data : BitVec n) (o k : Nat) :
    readBytes data o k = swapBytes k (field data (8 * o) (8 * k)) := by
  induction k generalizing o with
  | zero =>
    apply BitVec.eq_of_getLsbD_eq
    intro i bound
    omega
  | succ k ih =>
    have first : field (field data (8 * o) (8 * (k + 1))) 0 8 = byteAt data o := by
      rw [fieldField (by omega)]
      rfl
    have others : field (field data (8 * o) (8 * (k + 1))) 8 (8 * k) = field data (8 * (o + 1)) (8 * k) := by
      rw [fieldField (by omega),Nat.mul_add]
    rw [readBytes,swapBytes,first,others,ih]

theorem readSegment (data : BitVec n) (o k : Nat) :
    fromBytes (octets data o k) = (readBytes data o k).toNat := by
  induction k generalizing o with
  | zero => rfl
  | succ k ih =>
    have power : (256 : Nat) ^ k = 2 ^ (8 * k) := by rw [Nat.pow_mul]
    have low : (readBytes data (o + 1) k).toNat < 2 ^ (8 * k) := (readBytes data (o + 1) k).isLt
    rw [octets,fromBytes,octetsLength,ih,readBytes,BitVec.toNat_cast,BitVec.toNat_append,
      ← Nat.shiftLeft_add_eq_or_of_lt low,Nat.shiftLeft_eq,power]

theorem octetsRead (data : BitVec n) (o k : Nat) :
    octets data o k = toBytes k (readBytes data o k).toNat := by
  have back := toFromBytes (octets data o k)
  rw [octetsLength,readSegment] at back
  exact back.symm

end Syncons.BigEndian
