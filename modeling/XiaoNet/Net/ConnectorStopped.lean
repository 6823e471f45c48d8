import XiaoNet.Lib.Runs
import XiaoNet.Net.ConnectorCalls

/-!
# A `Connector` that was stopped

`stop` resets `status_` and removes the channel. It leaves `connect_` set, and `startInLoop` looks
at nothing else: one that is queued, or that a retry timer will run, starts the next attempt.

- `StaysStopped`: between a `stop` and the next `start`, a step makes no socket, registers no
  channel and gives no connection away.
- `startPending`: a call of `startInLoop` is still to come.
- `cutsOff`: `stop` gets to its end when no such call is to come.
- `staysStopped_of_cutsOff`: then the `Connector` stays stopped.
-/

namespace XiaoNet

open Runs

namespace Connector

/-- No socket was made, no channel registered and no connection given away. -/
structure Still (c c' : Connector) : Prop where
  sockets : c'.sockets.length = c.sockets.length
  channelPtr : c'.channelPtr = none
  handed : c'.handed = c.handed

instance (c c' : Connector) : Decidable (c.Still c') :=
  decidable_of_iff (_ ∧ _ ∧ _) ⟨fun h => ⟨h.1, h.2.1, h.2.2⟩, fun h => ⟨h.1, h.2, h.3⟩⟩

end Connector

namespace ConnectorCalls

variable {s : ConnectorCalls}

/-- Nothing new comes of a step, if the `Connector` is stopped and `start` is not called. -/
def StaysStopped (s : ConnectorCalls) (a : Act) : Prop :=
  s.stopped = true → a.starts = false → s.conn.Still (s.step a).conn

instance (s : ConnectorCalls) (a : Act) : Decidable (s.StaysStopped a) :=
  inferInstanceAs (Decidable (_ → _ → _))

/-- The step is not the end of a `stop` while `startInLoop` is pending. -/
def cutsOff (s : ConnectorCalls) : Act → Bool
  | .stop => !s.userRuns || !s.startPending
  | .runFunc _ =>
    match s.funcs with
    | .removeAndResetChannel starts :: _ =>
      !s.handled || starts ≠ s.starts || !s.startPending
    | _ => true
  | _ => true

/-- Nothing is left that could go on. -/
structure Halted (s : ConnectorCalls) : Prop where
  channelPtr : s.conn.channelPtr = none
  startPending : s.startPending = false
  /-- What the loop has still to handle finds `status_` reset. -/
  status : s.handled = true ∨ s.conn.status = .Disconnected

/-- A `Connector` that is stopped has halted. -/
def Inv (s : ConnectorCalls) : Prop := s.stopped = true → s.Halted

/-- With `cutsOff`, the end of a `stop` halts the `Connector`, and what comes after it until the
next `start` leaves it so. -/
theorem Inv.step (h : s.Inv) {a : Act} (hG : s.cutsOff a = true) : (s.step a).Inv := by
  unfold ConnectorCalls.step
  split
  · exact h
  cases a with
  | start errno =>
    dsimp only
    split
    · exact nofun
    · exact h
  | startElsewhere => exact nofun
  | queueStart =>
    dsimp only
    split
    · rename_i hpos
      -- a call of `start` was pending
      intro hstopped
      have hzero := (startPending_eq_false s).mp (h hstopped).startPending
      omega
    · exact h
  | stop =>
    dsimp only
    split
    · rename_i huser
      intro _
      exact
        { channelPtr := rfl
          startPending := by
            have hnone : s.startPending = false := by simpa [cutsOff, huser] using hG
            exact hnone
          status := .inr rfl }
    · exact h
  | stopElsewhere =>
    intro hstopped
    exact { h hstopped with status := .inr rfl }
  | queueStop starts =>
    dsimp only
    split
    · intro hstopped
      have hs := h hstopped
      refine { hs with startPending := ?_ }
      have hnone := hs.startPending
      rw [startPending_eq_false] at hnone ⊢
      simpa using hnone
    · exact h
  | runFunc errno =>
    dsimp only
    split
    · exact h
    · rename_i f funcs hfuncs
      split
      · rename_i hhandled
        cases f with
        | startInLoop =>
          intro hstopped
          have hnone := (startPending_eq_false s).mp (h hstopped).startPending
          simp [hfuncs] at hnone
        | removeAndResetChannel starts =>
          intro hstopped
          -- either it was stopped before, or this is the end of the last `stop`
          have hnone : s.startPending = false := by
            by_cases hold : s.stopped = true
            · exact (h hold).startPending
            · have hfresh : starts = s.starts := by simpa [call, hold] using hstopped
              simpa [cutsOff, hfuncs, hhandled, hfresh] using hG
          rw [startPending_eq_false] at hnone
          refine { channelPtr := rfl, startPending := ?_, status := .inl hhandled }
          rw [startPending_eq_false]
          exact ⟨hnone.1, fun hmem => hnone.2.1 (hfuncs ▸ List.mem_cons_of_mem _ hmem), hnone.2.2⟩
      · exact h
  | retryTimer errno =>
    dsimp only
    split
    · rename_i hfires
      intro hstopped
      have hnone := (startPending_eq_false s).mp (h hstopped).startPending
      simp only [Bool.and_eq_true, decide_eq_true_eq] at hfires
      omega
    · exact h
  | poll =>
    dsimp only
    split
    · rename_i hhandled
      intro hstopped
      have hs := h hstopped
      refine { hs with status := .inl ?_ }
      simp only [handled, Bool.and_eq_true] at hhandled ⊢
      simp [hhandled.1, hs.channelPtr]
    · exact h
  | event revents =>
    dsimp only
    split
    · rename_i hpolled
      intro hstopped
      have hs := h hstopped
      refine { hs with status := .inr (hs.status.resolve_left fun hhandled => ?_) }
      simp only [handled, Bool.and_eq_true, Option.isNone_iff_eq_none] at hpolled hhandled
      rw [hhandled.2] at hpolled
      cases hpolled.2
    · exact h
  | callback report stops =>
    dsimp only
    split
    · exact h
    · rename_i cb cbs hactive
      intro hstopped
      have hs := h hstopped
      have hdisc : s.conn.status = .Disconnected :=
        hs.status.resolve_left (by simp [handled, hactive])
      obtain heq | heq := runCallback_of_disconnected hdisc report stops cb <;> rw [heq]
      · exact { hs with status := .inr hdisc }
      · exact { hs with status := .inr hdisc }
  | destroy =>
    dsimp only
    split
    · intro hstopped
      have hs := h hstopped
      exact
        { channelPtr := by simp [hs.channelPtr]
          startPending := by simpa [startPending] using hs.startPending
          status := by simpa [handled] using hs.status }
    · exact h

/-- Of what has halted only `start` makes a socket, a channel or a connection. -/
theorem Halted.still (h : s.Halted) {a : Act} (ha : a.starts = false) {c : Connector}
    {destroyed : Bool} (heffect : s.Effect a c destroyed) : s.conn.Still c := by
  have hsame : s.conn.Still s.conn := ⟨rfl, h.channelPtr, rfl⟩
  cases heffect with
  | same => exact hsame
  | connect hstarts => simp [ha] at hstarts
  | disconnect => exact { hsame with }
  | stop | remove => exact ⟨rfl, rfl, rfl⟩
  | start connect errno hstarts => simp [ha, h.startPending] at hstarts
  | callback report stops cb hactive =>
    have hdisc : s.conn.status = .Disconnected := h.status.resolve_left (by simp [hactive])
    obtain heq | heq := runCallback_of_disconnected hdisc report stops cb <;> rw [heq]
    · exact hsame
    · exact { hsame with }
  | destroy => exact ⟨by simp, by simp [h.channelPtr], by simp⟩

/-- **A stopped `Connector` stays stopped**, in every run in which `stop` gets to its end only
when no `startInLoop` is pending. -/
theorem staysStopped_of_cutsOff (retry : Bool) {as : List Act}
    (h : Along step (fun s a => s.cutsOff a = true) (new retry) as) :
    Along step StaysStopped (new retry) as :=
  along_of_invariant (I := Inv) (fun _ _ hs hG => hs.step hG)
    (fun s a hs _ hstopped ha => (hs hstopped).still ha (effect_step s a)) (by simp [Inv, new]) h

/-- Another thread stops an attempt whose event the loop is about to handle. -/
theorem staysStopped_polled :
    Along step StaysStopped (new true)
      [.start .EINPROGRESS, .poll, .stopElsewhere, .event Channel.POLLOUT,
        .callback ⟨false, false⟩ false, .queueStop 1, .runFunc .ok, .poll, .retryTimer .ok] :=
  staysStopped_of_cutsOff true (by decide)

/-- A retry timer, or a closure of `start`, makes the next socket after `stop`. -/
theorem not_staysStopped :
    ¬ Along step StaysStopped (new true)
        [.start .ECONNREFUSED, .stop, .retryTimer .EINPROGRESS] ∧
      ¬ Along step StaysStopped (new false)
        [.startElsewhere, .queueStart, .stop, .runFunc .EINPROGRESS] := by
  decide

end ConnectorCalls

end XiaoNet
