import Mathlib

/-! A keyed digest known on one recorded input: there it is the recorded text, and
it keeps every other key and message apart from all the rest. -/

namespace WorkTicket.RecordedDigest

variable {Key Msg Out : Type} [DecidableEq Key] [DecidableEq Msg]

def digest (key : Key) (msg : Msg) (recorded : Out) (k : Key) (m : Msg) : Out ⊕ Key × Msg :=
  if k = key ∧ m = msg then .inl recorded else .inr (k, m)

variable {key : Key} {msg : Msg} {recorded : Out}

theorem digest_injective2 : Function.Injective2 (digest key msg recorded) := by
  intro k k' m m' h
  by_cases hk : k = key ∧ m = msg <;> by_cases hk' : k' = key ∧ m' = msg
  · exact ⟨hk.1.trans hk'.1.symm, hk.2.trans hk'.2.symm⟩
  · simp [digest, hk, hk'] at h
  · simp [digest, hk, hk'] at h
  · simpa [digest, hk, hk'] using h

end WorkTicket.RecordedDigest
