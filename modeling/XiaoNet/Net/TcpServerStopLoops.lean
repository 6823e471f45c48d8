import XiaoNet.Net.TcpServerStopPromise

/-!
# `stop` and the loops of the pool

`stop` releases the pool in the thread of the server's loop, and what closes a connection ends
there: `handleCloseInLoop` runs when `stop` has returned, and calls `queueInLoop` of the loop of
the connection. The wheels come after the pool as well.

- `stopsEmpty`: `stop` is called when `connSet_` and `timingWheelMap_` are empty.
- `Before`, `Emptied`: what holds before such a call, and after it.
- `deadCalls_eq_nil`: when every call of `stop` is one, no loop is called after its end.
-/

namespace XiaoNet

open Runs

namespace TcpServer

variable {s : TcpServer}

theorem connSet_handleCloseInLoop (s : TcpServer) (i : Nat) :
    (s.handleCloseInLoop i).connSet ⊆ s.connSet := by
  rw [handleCloseInLoop]
  dsimp only
  (repeat' split) <;> exact Finset.erase_subset i s.connSet

theorem connSet_connectionClosed (s : TcpServer) (i ioLoop : Nat) :
    (s.connectionClosed i ioLoop).connSet ⊆ s.connSet := by
  rw [connectionClosed]
  split
  · exact connSet_handleCloseInLoop s i
  · exact Finset.Subset.refl _

theorem connSet_stepConn (s : TcpServer) (i : Nat) (conn : Conn) (op : TcpConnectionImpl.Op)
    (rs : List SysRet) : (s.stepConn i conn op rs).connSet ⊆ s.connSet := by
  unfold stepConn
  dsimp only
  split
  · exact connSet_connectionClosed _ i conn.ioLoop
  · exact Finset.Subset.refl _

/-- Only `newConnection` adds a connection. -/
theorem connSet_step (s : TcpServer) {op : Op} (hop : ∀ mark, op ≠ .newConnection mark) :
    (s.step op).connSet ⊆ s.connSet := by
  have hrefl := Finset.Subset.refl s.connSet
  unfold step
  split
  · exact hrefl
  · -- closing erases, and only a new connection inserts
    cases op with
    | newConnection mark => exact absurd rfl (hop mark)
    | connectEstablished i =>
      dsimp only
      (repeat' split) <;> exact hrefl
    | call i op rs =>
      dsimp only
      split
      · split
        · exact connSet_stepConn s i _ op rs
        · exact hrefl
      · exact hrefl
    | event i revents =>
      dsimp only
      (repeat' split) <;> exact hrefl
    | callback i now ret rs =>
      dsimp only
      split
      · split
        · exact hrefl
        · split
          · exact connSet_stepConn s i _ _ rs
          · exact hrefl
      · exact hrefl
    | runFunc =>
      dsimp only
      split
      · exact hrefl
      · split
        · exact connSet_handleCloseInLoop _ _
        · exact hrefl

end TcpServer

/-- The wheel of a loop is still to be reset, or is being reset. -/
def Stopping.resets : Stopping → Bool
  | .resetting (_ :: _) | .waitingWheel _ => true
  | _ => false

namespace TcpServerStop

/-- `stop`, when it is called in the thread of the loop, finds no connection and no wheel. -/
def stopsEmpty (s : TcpServerStop) : Act → Bool
  | .stop _ => s.server.connSet = ∅ && s.timingWheelMap.isEmpty
  | _ => true

variable {s s' : TcpServerStop}

structure Before (s : TcpServerStop) : Prop where
  unanswered : s.Unanswered
  life : ∀ l, s.life l = .running
  stopFunc : s.caller = none → s.stopFunc = false
  deadCalls : s.deadCalls = []

structure Emptied (s : TcpServerStop) : Prop where
  acceptor : s.acceptor = false
  connSet : s.server.connSet = ∅
  timingWheelMap : s.timingWheelMap = []
  connPtrs : s.connPtrs = none ∨ s.connPtrs = some []
  stopFunc : s.stopFunc = false
  stopping : s.stopping.resets = false
  deadCalls : s.deadCalls = []

theorem callLoops_running (h : ∀ l, s.life l = .running) (ls : List Nat) :
    s.callLoops ls = s := by
  simp [callLoops, h]

theorem closeLoops_eq_nil (h : s.server.connSet = ∅) (op : TcpServer.Op) :
    s.closeLoops op = [] := by
  cases op <;> simp only [closeLoops]
  split <;> simp [h]

theorem Emptied.stepServer (h : s.Emptied) {op : TcpServer.Op} (hop : s.allowed op = true) :
    (s.stepServer op).Emptied := by
  -- the acceptor is gone
  have hnew : ∀ mark, op ≠ .newConnection mark := by
    rintro mark rfl
    simp [allowed, h.acceptor] at hop
  have hsub := TcpServer.connSet_step s.server hnew
  rw [h.connSet, Finset.subset_empty] at hsub
  have hcalls : (s.stepServer op).deadCalls = [] := by
    simp [TcpServerStop.stepServer, callLoops, closeLoops_eq_nil h.connSet, h.deadCalls]
  exact { h with connSet := hsub, deadCalls := hcalls }

/-- Once `stop` has found no connection and no wheel, every step is one of its own or of a
server that nobody connects to. -/
theorem Emptied.step (h : s.Emptied) (hcaller : s.caller = some .loopThread) (a : Act) :
    (s.step a).Emptied := by
  cases a with
  | server op =>
    rw [TcpServerStop.step]
    split
    · exact h.stepServer ‹_›
    · exact h
  | start => simpa [TcpServerStop.step, h.acceptor] using h
  | stop connPtrs => simpa [TcpServerStop.step, hcaller] using h
  | stopElsewhere => simpa [TcpServerStop.step, hcaller] using h
  | runStop connPtrs => simpa [TcpServerStop.step, h.stopFunc] using h
  | close =>
    -- there is nothing to close
    obtain hptrs | hptrs := h.connPtrs <;> simpa [TcpServerStop.step, hptrs] using h
  | closed =>
    rw [TcpServerStop.step]
    split
    · refine { h with connPtrs := .inl rfl, stopping := ?_ }
      dsimp only
      split
      · rfl
      · exact h.stopping
    · exact h
  | gotPromise =>
    rw [TcpServerStop.step]
    split
    · rw [TcpServerStop.gotPromise]
      split
      · exact { h with stopping := rfl }
      · rename_i hwaiting
        simpa [hwaiting, Stopping.resets] using h.stopping
      · exact h
    · exact h
  | release =>
    rw [TcpServerStop.step]
    split
    · exact { h with stopping := rfl }
    · refine { h with stopping := ?_ }
      rw [h.timingWheelMap]
      rfl
    · exact h
  | joined =>
    rw [TcpServerStop.step]
    split
    · split
      · exact { h with stopping := rfl }
      · exact h
    · exact h
  | resetWheel =>
    rw [TcpServerStop.step]
    split
    · rename_i hresetting
      simpa [hresetting, Stopping.resets] using h.stopping
    · exact { h with stopping := rfl }
    · exact h
  | exit | runWheel =>
    rw [TcpServerStop.step]
    split
    · exact { h with }
    · exact h

/-- What holds in a run in which `stop` finds no connection and no wheel. -/
structure Spared (s : TcpServerStop) : Prop where
  before : s.caller ≠ some .loopThread → s.Before
  emptied : s.caller = some .loopThread → s.Emptied

theorem Spared.deadCalls (h : s.Spared) : s.deadCalls = [] := by
  by_cases hcaller : s.caller = some .loopThread
  · exact (h.emptied hcaller).deadCalls
  · exact (h.before hcaller).deadCalls

theorem Before.spared (h : s.Before) (hcaller : s.caller ≠ some .loopThread) : s.Spared :=
  ⟨fun _ => h, fun hc => absurd hc hcaller⟩

/-- A step that ends no loop and is not a call of `stop`. -/
theorem Before.of_same (h : s.Before) (hcaller : s.caller ≠ some .loopThread)
    (helsewhere : s'.FromElsewhere) (hcaller' : s'.caller = s.caller) (hlife : s'.life = s.life)
    (hfunc : s'.caller = none → s'.stopFunc = false) (hcalls : s'.deadCalls = s.deadCalls) :
    s'.Spared :=
  have hc : s'.caller ≠ some .loopThread := hcaller' ▸ hcaller
  Before.spared
    { unanswered := helsewhere hc
      life := hlife ▸ h.life
      stopFunc := hfunc
      deadCalls := hcalls.trans h.deadCalls } hc

theorem Before.stop (h : s.Before) (hnone : s.caller = none) {connPtrs : List Nat}
    (hcopies : s.copies connPtrs = true) (hG : s.stopsEmpty (.stop connPtrs) = true) :
    (s.step (.stop connPtrs)).Emptied := by
  simp only [stopsEmpty, Bool.and_eq_true, decide_eq_true_eq, List.isEmpty_iff] at hG
  obtain ⟨hconns, hwheels⟩ := hG
  have hptrs : connPtrs = [] := by
    simp only [copies, Bool.and_eq_true, decide_eq_true_eq, hconns] at hcopies
    simpa using hcopies.2
  rw [TcpServerStop.step, if_pos ⟨hnone, hcopies⟩]
  exact
    { acceptor := rfl
      connSet := hconns
      timingWheelMap := hwheels
      connPtrs := .inr (by rw [hptrs])
      stopFunc := h.stopFunc hnone
      stopping := rfl
      deadCalls := h.deadCalls }

theorem Before.step (h : s.Before) (hcaller : s.caller ≠ some .loopThread) {a : Act}
    (hG : s.stopsEmpty a = true) : (s.step a).Spared := by
  have hs := h.spared hcaller
  have helsewhere := FromElsewhere.step (fun _ => h.unanswered) a
  have hstopping := h.unanswered.stopping hcaller
  cases a with
  | server op =>
    rw [TcpServerStop.step] at helsewhere ⊢
    split
    · rename_i hop
      rw [if_pos hop] at helsewhere
      refine h.of_same hcaller helsewhere rfl rfl h.stopFunc ?_
      rw [TcpServerStop.stepServer, callLoops_running h.life]
    · exact hs
  | start =>
    rw [TcpServerStop.step] at helsewhere ⊢
    split
    · exact hs
    · rename_i hstart
      rw [if_neg hstart] at helsewhere
      exact h.of_same hcaller helsewhere rfl rfl h.stopFunc rfl
  | stop connPtrs =>
    by_cases hstop : s.caller = none ∧ s.copies connPtrs = true
    · have hempty := h.stop hstop.1 hstop.2 hG
      rw [TcpServerStop.step, if_pos hstop] at hempty ⊢
      exact ⟨fun hc => absurd rfl hc, fun _ => hempty⟩
    · rw [TcpServerStop.step, if_neg hstop]
      exact hs
  | stopElsewhere =>
    rw [TcpServerStop.step] at helsewhere ⊢
    split
    · rename_i hnone
      rw [if_pos hnone] at helsewhere
      have hc : some StopCaller.other ≠ some .loopThread := by decide
      exact Before.spared
        { unanswered := helsewhere hc
          life := h.life
          stopFunc := by simp
          deadCalls := h.deadCalls } hc
    · exact hs
  | runStop connPtrs =>
    rw [TcpServerStop.step] at helsewhere ⊢
    split
    · rename_i hrun
      rw [if_pos hrun] at helsewhere
      exact h.of_same hcaller helsewhere rfl rfl (fun _ => rfl) rfl
    · exact hs
  | close =>
    rw [TcpServerStop.step] at helsewhere ⊢
    split
    · rename_i i connPtrs hptrs
      rw [hptrs] at helsewhere
      refine h.of_same hcaller helsewhere rfl rfl h.stopFunc ?_
      dsimp only [TcpServerStop.forceClose]
      rw [callLoops_running h.life]
    · exact hs
  | closed =>
    rw [TcpServerStop.step] at helsewhere ⊢
    split
    · rename_i hptrs
      rw [hptrs] at helsewhere
      exact h.of_same hcaller helsewhere rfl rfl h.stopFunc rfl
    · exact hs
  -- what is left needs a caller that is past the first wait
  | gotPromise => simpa [TcpServerStop.step, h.unanswered.pro] using hs
  | exit l => simpa [TcpServerStop.step, h.life] using hs
  | runWheel l => simpa [TcpServerStop.step, h.unanswered.wheelFuncs] using hs
  | release | joined | resetWheel =>
    obtain hstop | hstop := hstopping <;> simpa [TcpServerStop.step, hstop] using hs

theorem Spared.step (h : s.Spared) {a : Act} (hG : s.stopsEmpty a = true) :
    (s.step a).Spared := by
  by_cases hcaller : s.caller = some .loopThread
  · have hcaller' := caller_step hcaller a
    exact ⟨fun hc => absurd hcaller' hc, fun _ => (h.emptied hcaller).step hcaller a⟩
  · exact (h.before hcaller).step hcaller hG

theorem spared_new (loop : Nat) (ioLoops loopPool : List Nat) (idleTimeout : Nat) :
    (new loop ioLoops loopPool idleTimeout).Spared :=
  Before.spared
    { unanswered := fromElsewhere_new loop ioLoops loopPool idleTimeout (by simp [new])
      life := fun _ => rfl
      stopFunc := fun _ => rfl
      deadCalls := rfl } (by simp [new])

/-- **No call of a loop that is gone**, in every run in which `stop` finds no connection and no
wheel. -/
theorem deadCalls_eq_nil {loop : Nat} {ioLoops : List Nat} {idleTimeout : Nat} {as : List Act}
    (h : Along step (fun s a => s.stopsEmpty a = true)
      (new loop ioLoops ioLoops idleTimeout) as) :
    Always step (fun s => s.deadCalls = []) (new loop ioLoops ioLoops idleTimeout) as :=
  (always_of_along (I := Spared) (fun _ _ hs hG => hs.step hG)
    (spared_new loop ioLoops ioLoops idleTimeout) h).mono fun _ hs => hs.deadCalls

/-- The only connection is closed before `stop`. -/
theorem no_deadCalls_closed :
    Always step (fun s => s.deadCalls = []) (new 0 [1] [1] 0)
      [.start, .server (.newConnection none), .server (.connectEstablished 0),
        .server (.call 0 (.forceClose false) []), .server (.call 0 .runFunc []), .server .runFunc,
        .server (.call 0 .runFunc []), .stop [], .closed, .release, .exit 1, .joined, .release,
        .resetWheel] :=
  deadCalls_eq_nil (by decide)

/-- `handleCloseInLoop` of a connection that `stop` has closed runs after `stop`; a wheel is
reset by `stop` itself. -/
theorem deadCalls_stop :
    ¬ Always step (fun s => s.deadCalls = []) (new 0 [1] [1] 0)
        [.start, .server (.newConnection none), .server (.connectEstablished 0), .stop [0], .close,
          .closed, .server (.call 0 .runFunc []), .release, .exit 1, .joined, .release,
          .resetWheel, .server .runFunc] ∧
      ¬ Always step (fun s => s.deadCalls = []) (new 0 [1] [1] 60)
        [.start, .stop [], .closed, .release, .exit 1, .joined, .release, .resetWheel] := by
  decide

end TcpServerStop

end XiaoNet
