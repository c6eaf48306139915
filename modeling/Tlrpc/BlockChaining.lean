import Mathlib.Data.List.GetD
import Mathlib.Logic.Equiv.Defs

namespace Tlrpc

section

variable {B : Type} (xor : B → B → B) (cipher : Equiv.Perm B)

/-- Infinite garble extension, over the preceding ciphertext and the preceding plaintext. -/
def igeEncrypt : B → B → List B → List B
  | _, _, [] => []
  | prevCipher, prevPlain, x :: rest =>
    xor (cipher (xor x prevCipher)) prevPlain ::
      igeEncrypt (xor (cipher (xor x prevCipher)) prevPlain) x rest

def igeDecrypt : B → B → List B → List B
  | _, _, [] => []
  | prevCipher, prevPlain, y :: rest =>
    xor (cipher.symm (xor y prevPlain)) prevCipher ::
      igeDecrypt y (xor (cipher.symm (xor y prevPlain)) prevCipher) rest

theorem length_igeEncrypt (prevCipher prevPlain : B) (blocks : List B) :
    (igeEncrypt xor cipher prevCipher prevPlain blocks).length = blocks.length := by
  induction blocks generalizing prevCipher prevPlain with
  | nil => rfl
  | cons x rest ih => rw [igeEncrypt, List.length_cons, List.length_cons, ih]

theorem igeDecrypt_igeEncrypt (cancel : ∀ a b, xor (xor a b) b = a) (prevCipher prevPlain : B)
    (blocks : List B) :
    igeDecrypt xor cipher prevCipher prevPlain (igeEncrypt xor cipher prevCipher prevPlain blocks) =
      blocks := by
  induction blocks generalizing prevCipher prevPlain with
  | nil => rfl
  | cons x rest ih => rw [igeEncrypt, igeDecrypt, cancel, Equiv.symm_apply_apply, cancel, ih]

end

def toBlocks (k : Nat) : Nat → List UInt8 → List (Vector UInt8 k)
  | 0, _ => []
  | n + 1, data => Vector.ofFn (fun i : Fin k => data.getD i 0) :: toBlocks k n (data.drop k)

def ofBlocks {k : Nat} (blocks : List (Vector UInt8 k)) : List UInt8 := blocks.flatMap (·.toList)

variable {k : Nat}

theorem length_ofBlocks (blocks : List (Vector UInt8 k)) : (ofBlocks blocks).length = k * blocks.length := by
  induction blocks with
  | nil => rfl
  | cons b rest ih =>
    unfold ofBlocks at ih ⊢
    rw [List.flatMap_cons, List.length_append, ih, Vector.length_toList, List.length_cons,
      Nat.mul_succ, Nat.add_comm]

theorem toBlocks_ofBlocks (blocks : List (Vector UInt8 k)) (rest : List UInt8) :
    toBlocks k blocks.length (ofBlocks blocks ++ rest) = blocks := by
  induction blocks with
  | nil => rfl
  | cons b tail ih =>
    have hspl : ofBlocks (b :: tail) ++ rest = b.toList ++ (ofBlocks tail ++ rest) := by
      unfold ofBlocks
      rw [List.flatMap_cons, List.append_assoc]
    have hlen : b.toList.length = k := Vector.length_toList
    rw [List.length_cons, toBlocks, hspl, List.drop_left' hlen, ih]
    congr 1
    refine Vector.ext fun i hi => ?_
    rw [Vector.getElem_ofFn, List.getD_append _ _ _ _ (by rw [hlen]; exact hi),
      List.getD_eq_getElem _ _ (by rw [hlen]; exact hi)]
    exact Vector.getElem_toList _

theorem ofBlocks_toBlocks {n : Nat} {data : List UInt8} (h : data.length = k * n) :
    ofBlocks (toBlocks k n data) = data := by
  induction n generalizing data with
  | zero =>
    rw [Nat.mul_zero] at h
    rw [List.length_eq_zero_iff.mp h]
    rfl
  | succ n ih =>
    have hrs : (data.drop k).length = k * n := by
      rw [List.length_drop, h, Nat.mul_succ]
      omega
    have hfst : (Vector.ofFn (fun i : Fin k => data.getD i 0)).toList = data.take k := by
      refine List.ext_getElem ?_ fun i h1 h2 => ?_
      · rw [Vector.length_toList, List.length_take, h, Nat.mul_succ]
        omega
      · rw [Vector.length_toList] at h1
        have hi : i < data.length := by
          rw [h, Nat.mul_succ]
          omega
        rw [Vector.getElem_toList, Vector.getElem_ofFn, List.getElem_take, List.getD_eq_getElem _ _ hi]
    have hih := ih hrs
    unfold ofBlocks at hih ⊢
    rw [toBlocks, List.flatMap_cons, hih, hfst, List.take_append_drop]

theorem length_toBlocks (k n : Nat) (data : List UInt8) : (toBlocks k n data).length = n := by
  induction n generalizing data with
  | zero => rfl
  | succ n ih => rw [toBlocks, List.length_cons, ih]

end Tlrpc
