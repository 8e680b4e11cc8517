import PredictFun.Wss.Private
import PredictFun.Wss.Public

namespace PredictFun.Wss

open Base Codec

namespace Client

variable {π δ : Type} {P : Protocol π} {s t : Client π δ} {reads : Bool}

/-- A started client holds a channel exactly when no reconnect is pending. -/
def Linked (s : Client π δ) : Prop := s.started = true → s.channel = !s.reconnectPending

theorem Passive.linked (h : Passive P reads s t) (hs : Linked s) : Linked t := by
  refine h.keeps (fun s ledger hi => hi) (fun s reason _ _ _ => ?_) hs
  intro _
  simp

theorem Passive.started (h : Passive P reads s t) : t.started = s.started := by
  obtain ⟨ledger, -, rfl | ⟨-, -, reason, rfl⟩⟩ := h
  · rfl
  · simp

theorem Passive.of_waiting (h : Passive P reads s t) (hw : s.started = true → s.reconnectPending = true) :
    ∃ ledger, t = { s with ledger := ledger } := by
  obtain ⟨ledger, -, rfl | ⟨hs, hp, -⟩⟩ := h
  · exact ⟨ledger, rfl⟩
  · rw [hw hs] at hp
    cases hp

theorem setState_linked (value : StreamState) (reason : Bytes) (force : Bool) (hs : Linked s) :
    Linked (setState value reason force s) := by
  intro hstarted
  simpa using hs (by simpa using hstarted)

theorem hardStop_linked (reason : Bytes) (s : Client π δ) : Linked (hardStop P reason s) := by
  intro hstarted
  simp at hstarted

theorem Renewed.linked (h : Renewed P s t) : Linked t := by
  intro _
  obtain ⟨ledger, ⟨rfl, -⟩ | ⟨reason, rfl, -⟩⟩ := h
  · simp
  · simp

theorem Renewed.generation (h : Renewed P s t) : t.generation = s.generation + 1 := by
  obtain ⟨ledger, ⟨rfl, -⟩ | ⟨reason, rfl, -⟩⟩ := h
  · simp
  · simp

end Client

end PredictFun.Wss
