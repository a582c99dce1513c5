/-
# Dayfinch.Library.Sealing -- authenticated encryption, as far as storage relies on it

A sealed value is made with a key, a nonce and associated data. Who opens it with the same key and the
same data gets the payload back; with another key or other data the authentication fails. Nothing else is
assumed of the cipher, and any type may stand for the sealed bytes.
-/
import Mathlib.Logic.Basic

namespace Dayfinch.Library

universe u

/-- Authenticated encryption with associated data. The sealed value holds its nonce. -/
structure Aead (Key Nonce Data Payload Sealed : Type u) where
  encrypt : Key → Nonce → Data → Payload → Sealed
  decrypt : Key → Data → Sealed → Option Payload
  decrypt_encrypt : ∀ key nonce data payload, decrypt key data (encrypt key nonce data payload) =
    some payload
  decrypt_other : ∀ {key key' data data'} (nonce : Nonce) (payload : Payload),
    key ≠ key' ∨ data ≠ data' → decrypt key data (encrypt key' nonce data' payload) = none

namespace Aead

variable {Key Nonce Data Payload Sealed : Type u} (aead : Aead Key Nonce Data Payload Sealed)

attribute [simp] decrypt_encrypt

/-- A sealed value that carries its key and its data in the open: nothing is hidden, but it opens under
the two laws. -/
def labelled (Key Nonce Data Payload : Type u) [DecidableEq Key] [DecidableEq Data] :
    Aead Key Nonce Data Payload (Key × Data × Payload) where
  encrypt key _ data payload := (key, data, payload)
  decrypt key data value := if key = value.1 ∧ data = value.2.1 then some value.2.2 else none
  decrypt_encrypt := by
    intro key _ data payload
    simp
  decrypt_other := by
    intro key key' data data' _ payload hother
    exact if_neg fun hsame => hother.elim (fun h => h hsame.1) (fun h => h hsame.2)

/-- The value was sealed over this payload with this key and these data. -/
def Seals (key : Key) (data : Data) (value : Sealed) (payload : Payload) : Prop :=
  ∃ nonce, value = aead.encrypt key nonce data payload

variable {aead} {key key' : Key} {data data' : Data} {value : Sealed} {payload payload' : Payload}

theorem seals_encrypt (key : Key) (nonce : Nonce) (data : Data) (payload : Payload) :
    aead.Seals key data (aead.encrypt key nonce data payload) payload := ⟨nonce, rfl⟩

theorem Seals.decrypt (h : aead.Seals key data value payload) :
    aead.decrypt key data value = some payload := by
  obtain ⟨nonce, rfl⟩ := h
  exact aead.decrypt_encrypt key nonce data payload

/-- What can be opened was sealed with that key, those data and that payload. -/
theorem Seals.of_decrypt (h : aead.Seals key data value payload)
    (hopen : aead.decrypt key' data' value = some payload') :
    key' = key ∧ data' = data ∧ payload' = payload := by
  obtain ⟨nonce, rfl⟩ := h
  by_cases hsame : key' = key ∧ data' = data
  · obtain ⟨rfl, rfl⟩ := hsame
    rw [aead.decrypt_encrypt] at hopen
    exact ⟨rfl, rfl, (Option.some.inj hopen).symm⟩
  · rw [aead.decrypt_other nonce payload (not_and_or.mp hsame)] at hopen
    cases hopen

end Aead

end Dayfinch.Library
