import XiaoNet.Lib.Deal
import XiaoNet.Lib.Runs
import XiaoNet.Net.TcpServer

/-!
# The loops of the connections

`newConnection` takes the next of `ioLoops_`, and a connection stays where it is.

- `Dealt`: the loops of the connections that were made are those of the server, dealt in turn.
- `always_spread`: no loop has got more than one connection more than another.
-/

namespace XiaoNet

namespace TcpServer

/-- How many connections loop `l` has got. -/
def load (s : TcpServer) (l : Nat) : Nat := (s.conns.map Conn.ioLoop).count l

/-- The connections are in loops of the server, and evenly. -/
structure Spread (s : TcpServer) : Prop where
  loops : ∀ conn ∈ s.conns, conn.ioLoop ∈ s.ioLoops
  even : ∀ a ∈ s.ioLoops, ∀ b ∈ s.ioLoops, s.load a ≤ s.load b + 1

structure Dealt (ioLoops : List Nat) (s : TcpServer) : Prop where
  ioLoops_eq : s.ioLoops = ioLoops
  conns_eq : s.conns.map Conn.ioLoop = deal ioLoops id s.conns.length
  next_eq : ioLoops ≠ [] → s.nextLoopIdx = s.conns.length % ioLoops.length

variable {ioLoops : List Nat} {s s' : TcpServer}

theorem Dealt.spread (h : Dealt ioLoops s) (hnodup : ioLoops.Nodup) : Spread s where
  loops := by
    intro conn hconn
    have hin : conn.ioLoop ∈ s.conns.map Conn.ioLoop := List.mem_map_of_mem hconn
    rw [h.conns_eq, deal, List.mem_filterMap] at hin
    obtain ⟨i, -, hi⟩ := hin
    rw [h.ioLoops_eq]
    exact List.mem_of_getElem? hi
  even := by
    intro a ha b hb
    rw [h.ioLoops_eq] at ha hb
    rw [load, load, h.conns_eq, count_deal_id hnodup ha, count_deal_id hnodup hb]
    split <;> split <;> omega

/-! ## What an operation leaves alone -/

/-- The connections are where they were, and so is the counter. -/
structure Stays (s s' : TcpServer) : Prop where
  conns_eq : s'.conns.map Conn.ioLoop = s.conns.map Conn.ioLoop
  ioLoops_eq : s'.ioLoops = s.ioLoops
  next_eq : s'.nextLoopIdx = s.nextLoopIdx

theorem Stays.refl (s : TcpServer) : Stays s s := ⟨rfl, rfl, rfl⟩

theorem Stays.trans {t : TcpServer} (h : Stays s s') (h' : Stays s' t) : Stays s t :=
  ⟨h'.conns_eq.trans h.conns_eq, h'.ioLoops_eq.trans h.ioLoops_eq, h'.next_eq.trans h.next_eq⟩

theorem Dealt.stays (h : Dealt ioLoops s) (hs : Stays s s') : Dealt ioLoops s' := by
  have hlen : s'.conns.length = s.conns.length := by
    have heq := congrArg List.length hs.conns_eq
    simpa using heq
  refine ⟨hs.ioLoops_eq.trans h.ioLoops_eq, ?_, ?_⟩
  · rw [hs.conns_eq, hlen]
    exact h.conns_eq
  · rw [hs.next_eq, hlen]
    exact h.next_eq

theorem stays_setConn {i : Nat} {old : Conn} (conn : Conn) (hold : s.conns[i]? = some old)
    (hloop : conn.ioLoop = old.ioLoop) : Stays s (s.setConn i conn) := by
  refine ⟨?_, rfl, rfl⟩
  show (s.conns.set i conn).map Conn.ioLoop = _
  rw [List.map_set, hloop]
  have hmap : (s.conns.map Conn.ioLoop)[i]? = some old.ioLoop := by
    rw [List.getElem?_map, hold]
    rfl
  obtain ⟨hlt, heq⟩ := List.getElem?_eq_some_iff.mp hmap
  rw [← heq, List.set_getElem_self]

theorem stays_handleCloseInLoop (s : TcpServer) (i : Nat) : Stays s (s.handleCloseInLoop i) := by
  unfold handleCloseInLoop
  dsimp only
  generalize (if i ∈ s.connSet then 1 else 0) = n
  have herase : Stays s { s with
      connSet := s.connSet.erase i
      erased := s.erased ++ [n]
      failed := s.failed || n != 1 } := ⟨rfl, rfl, rfl⟩
  refine herase.trans ?_
  split
  · exact .refl _
  · split
    next conn hconn => exact stays_setConn _ hconn rfl
    next => exact .refl _

theorem stays_connectionClosed (s : TcpServer) (i ioLoop : Nat) :
    Stays s (s.connectionClosed i ioLoop) := by
  unfold connectionClosed
  split
  · exact stays_handleCloseInLoop s i
  · exact ⟨rfl, rfl, rfl⟩

theorem stays_stepConn {i : Nat} {old : Conn} (conn : Conn) (hold : s.conns[i]? = some old)
    (hloop : conn.ioLoop = old.ioLoop) (op : TcpConnectionImpl.Op) (rs : List SysRet) :
    Stays s (s.stepConn i conn op rs) := by
  have hset := stays_setConn { conn with
    impl := conn.impl.step (op, rs)
    destroyed := if conn.impl.Removes op then conn.destroyed + 1 else conn.destroyed } hold hloop
  unfold stepConn
  dsimp only
  split
  · exact hset.trans (stays_connectionClosed _ i conn.ioLoop)
  · exact hset

theorem dealt_newConnection (h : Dealt ioLoops s) (highWaterMark : Option Nat) :
    Dealt ioLoops (s.newConnection highWaterMark) := by
  obtain ⟨hloops, hconns, hnextIdx⟩ := h
  unfold newConnection
  cases hnext : s.ioLoops[s.nextLoopIdx]? with
  | none => exact ⟨hloops, hconns, hnextIdx⟩
  | some ioLoop =>
    rw [hloops] at hnext
    have hlt : s.nextLoopIdx < ioLoops.length := (List.getElem?_eq_some_iff.mp hnext).1
    have hne : ioLoops ≠ [] := List.length_pos_iff.mp (Nat.lt_of_le_of_lt (Nat.zero_le _) hlt)
    have hidx := hnextIdx hne
    -- the loop under the index is the one whose turn it is
    have hconn : ∀ conn : Conn, conn.ioLoop = ioLoop →
        (s.conns ++ [conn]).map Conn.ioLoop = deal ioLoops id (s.conns ++ [conn]).length := by
      intro conn hloop
      rw [List.map_append, List.length_append, List.length_singleton, deal_succ, ← hconns]
      show _ ++ [conn.ioLoop] = _ ++ ioLoops[s.conns.length % ioLoops.length]?.toList
      rw [← hidx, hnext, hloop]
      rfl
    refine ⟨hloops, ?_, fun _ => ?_⟩
    · dsimp only
      split
      · exact hconn _ rfl
      · exact hconn _ rfl
    · dsimp only
      rw [List.length_append, List.length_singleton, Nat.add_mod, ← hidx, Nat.add_mod_mod, hloops]
      split
      · -- after the last loop comes the first
        have heq : s.nextLoopIdx + 1 = ioLoops.length := by omega
        rw [heq, Nat.mod_self]
      · rw [Nat.mod_eq_of_lt (by omega)]

theorem dealt_step (h : Dealt ioLoops s) (op : Op) : Dealt ioLoops (s.step op) := by
  unfold step
  split
  · exact h
  · -- only a new connection takes a loop, the others stay where they are
    cases op with
    | newConnection highWaterMark => exact dealt_newConnection h highWaterMark
    | connectEstablished i =>
      dsimp only
      split
      next conn hconn =>
        split
        · exact h.stays (stays_setConn _ hconn rfl)
        · exact h
      next => exact h
    | call i op rs =>
      dsimp only
      split
      next conn hconn =>
        split
        · exact h.stays (stays_stepConn _ hconn rfl op rs)
        · exact h
      next => exact h
    | event i revents =>
      dsimp only
      split
      next conn hconn =>
        split
        · exact h.stays (stays_setConn _ hconn rfl)
        · exact h
      next => exact h
    | callback i now ret rs =>
      dsimp only
      split
      next conn hconn =>
        split
        · exact h
        next cb cbs _ =>
          split
          next op _ =>
            exact h.stays (stays_stepConn { conn with active := cbs } hconn rfl op rs)
          next => exact h.stays (stays_setConn _ hconn rfl)
      next => exact h
    | runFunc =>
      dsimp only
      split
      · exact h
      next i funcs _ =>
        split
        · have hpop : Stays s { s with funcs := funcs } := ⟨rfl, rfl, rfl⟩
          exact h.stays (hpop.trans (stays_handleCloseInLoop _ i))
        · exact h

/-- **Spread**: along every run of a server, each connection is in one of its loops, and no loop
has got more than one connection more than another. -/
theorem always_spread (hnodup : ioLoops.Nodup) (loop idleTimeout : Nat) (ops : List Op) :
    Runs.Always step Spread (new loop ioLoops idleTimeout) ops := by
  have hnew : Dealt ioLoops (new loop ioLoops idleTimeout) :=
    ⟨rfl, rfl, fun _ => (Nat.zero_mod _).symm⟩
  exact (Runs.always_of_step (I := Dealt ioLoops) (fun _ op h => dealt_step h op) hnew ops).mono
    fun _ h => h.spread hnodup

/-- Two loops and three connections. -/
theorem always_spread_two :
    Runs.Always step Spread (new 0 [1, 2] 0)
      [.newConnection none, .newConnection none, .connectEstablished 0, .newConnection none] :=
  always_spread (by decide) _ _ _

end TcpServer

end XiaoNet
