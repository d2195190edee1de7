/-
Module: Remgr.Proofs.CipherPieces
Purpose: The cipher of the control channel over data that arrives in pieces: one continuous stream,
  and the textbook mode, wherever the cuts are.
Trusted boundary: AES-128, an arbitrary function of key and block
Main exports: Cfb.applyEach, Cfb.applyEach_eq, Cfb.ContinuousCipher, Cfb.continuousCipher
-/
import Remgr.Frps.Crypto

namespace Remgr.Frps.Cfb

open Lib

/-- `Cfb::apply` to pieces of a stream, one after another. -/
def applyEach (s : Cfb) : List (List UInt8) → Cfb × List (List UInt8)
  | [] => (s, [])
  | piece :: pieces =>
      let one := s.apply piece
      let rest := applyEach one.1 pieces
      (rest.1, one.2 :: rest.2)

/-- The pieces leave the state that one call leaves, and the bytes of one call. -/
theorem applyEach_eq (s : Cfb) (pieces : List (List UInt8)) :
    (s.applyEach pieces).1 = (s.apply pieces.flatten).1 ∧
      (s.applyEach pieces).2.flatten = (s.apply pieces.flatten).2 := by
  induction pieces generalizing s with
  | nil => exact ⟨rfl, rfl⟩
  | cons piece pieces inductionHypothesis =>
      obtain ⟨state, bytes⟩ := inductionHypothesis (s.apply piece).1
      rw [List.flatten_cons, apply_append, applyEach]
      exact ⟨state, by rw [List.flatten_cons, bytes]⟩

/-- A cipher with this key and IV works on a continuous stream, in the textbook mode. -/
structure ContinuousCipher (aes : Aes) (key iv : IvBlock) : Prop where
  joined : ∀ decrypt pieces,
    ((new aes key iv decrypt).applyEach pieces).1 =
        ((new aes key iv decrypt).apply pieces.flatten).1 ∧
      ((new aes key iv decrypt).applyEach pieces).2.flatten =
        ((new aes key iv decrypt).apply pieces.flatten).2
  textbook : ∀ pieces,
    ((new aes key iv false).applyEach pieces).2.flatten = cfbEncrypt (aes key) iv pieces.flatten
  undone : ∀ sent received,
    received.flatten = ((new aes key iv false).applyEach sent).2.flatten →
      ((new aes key iv true).applyEach received).2.flatten = sent.flatten

/-- Where the data is cut makes no difference, in either direction. -/
theorem continuousCipher (aes : Aes) (key iv : IvBlock) : ContinuousCipher aes key iv := by
  refine ⟨fun decrypt pieces => applyEach_eq _ pieces, fun pieces => ?_, fun sent received same => ?_⟩
  · rw [(applyEach_eq _ pieces).2, apply_new_eq_cfbEncrypt]
  · have encrypts : (new aes key iv false).decrypt = false := rfl
    have opened := decrypt_encrypt encrypts sent.flatten
    rw [flipped_new] at opened
    rw [(applyEach_eq _ received).2, same, (applyEach_eq _ sent).2, opened]

end Remgr.Frps.Cfb
