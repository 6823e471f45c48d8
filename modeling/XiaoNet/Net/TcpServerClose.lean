import XiaoNet.Net.ConnectionLife
import XiaoNet.Net.TcpServer

/-!
# Every connection is closed once

`handleClose` is reached from the hang-up callback, from the read callback and from
`forceClose`, and only `forceClose` looks at the status.

- `ClosedOnce`: no connection has run `closeCallback_`, the down call of
  `connectionCallback_` or `connectDestroyed` twice, and every `erase` has removed one.
- `closesAgain`: the next callback of an event closes a connection that is disconnected.
- `Inv`: the life of a connection against the queues and the set of the server. While `i` is
  owed, its `closeCallback_` has run and `handleCloseInLoop` has not yet been queued.
-/

namespace XiaoNet

namespace TcpServer

/-- How often `closeCallback_` has run. -/
def Conn.closes (conn : Conn) : Nat := conn.impl.calls.count .close

/-- How often `connectionCallback_` has run since `connectEstablished` called it. -/
def Conn.downs (conn : Conn) : Nat := conn.impl.calls.count .connection - 1

structure ClosedOnce (s : TcpServer) : Prop where
  conns : ∀ conn ∈ s.conns, conn.closes ≤ 1 ∧ conn.downs ≤ 1 ∧ conn.destroyed ≤ 1
  erased : ∀ n ∈ s.erased, n = 1

/-- The callback ends the connection. -/
def ends (ret : TcpConnectionImpl.ReadRet) : Channel.Callback → Bool
  | .close => true
  | .read => ret.ends
  | .error | .write => false

/-- The next callback ends a connection that is already disconnected. -/
def closesAgain (s : TcpServer) : Op → Bool
  | .callback i _ ret _ =>
    match s.conns[i]? with
    | some conn =>
      !s.failed && conn.impl.status = .disconnected && conn.active.head?.any (ends ret)
    | none => false
  | _ => false

instance (s : TcpServer) : Decidable s.ClosedOnce :=
  decidable_of_iff ((∀ conn ∈ s.conns, conn.closes ≤ 1 ∧ conn.downs ≤ 1 ∧ conn.destroyed ≤ 1) ∧
      ∀ n ∈ s.erased, n = 1)
    ⟨fun h => ⟨h.1, h.2⟩, fun h => ⟨h.conns, h.erased⟩⟩

/-! ## The life of a connection and the server -/

/-- The life of a connection against its owner: how often it is destroyed, how many closures
of `handleCloseInLoop` wait, and whether it is in the set. -/
structure Fits (l : Life) (establishing : Bool) (destroyed waiting : Nat) (member : Prop) :
    Prop where
  connecting_eq : l.connecting = establishing
  connections_eq : l.connections = (if establishing then 0 else 1) + l.closes
  closes_eq : l.closes = if l.disconnected then 1 else 0
  ledger : l.closing + l.destroys + destroyed = l.closes
  waiting_eq : waiting = l.closing
  member_iff : member ↔ l.destroys + destroyed = 0

section Fits

variable {l : Life} {establishing : Bool} {destroyed waiting : Nat} {member member' : Prop}

theorem Fits.closes_le (h : Fits l establishing destroyed waiting member) : l.closes ≤ 1 := by
  rw [h.closes_eq]
  split <;> omega

theorem Fits.close (h : Fits l establishing destroyed waiting member)
    (hup : l.disconnected = false) (hest : l.connecting = false) :
    Fits l.close establishing destroyed (waiting + 1) member where
  connecting_eq := hest.symm.trans h.connecting_eq
  connections_eq := by
    have heq := h.connections_eq
    simp only [Life.close]
    omega
  closes_eq := by
    have heq := h.closes_eq
    rw [hup] at heq
    simp only [Life.close, heq]
    rfl
  ledger := by
    have heq := h.ledger
    simp only [Life.close]
    omega
  waiting_eq := congrArg (· + 1) h.waiting_eq
  member_iff := h.member_iff

/-- With a closure waiting the connection is in the set. -/
theorem Fits.mem (h : Fits l establishing destroyed (waiting + 1) member) : member := by
  have hle := h.closes_le
  have hledger := h.ledger
  have hwaiting := h.waiting_eq
  exact h.member_iff.mpr (by omega)

theorem Fits.answer (h : Fits l establishing destroyed (waiting + 1) member) (hout : ¬ member') :
    Fits l.answer establishing destroyed waiting member' where
  connecting_eq := h.connecting_eq
  connections_eq := h.connections_eq
  closes_eq := h.closes_eq
  ledger := by
    have heq := h.ledger
    have hwaiting := h.waiting_eq
    simp only [Life.answer]
    omega
  waiting_eq := by
    have hwaiting := h.waiting_eq
    simp only [Life.answer]
    omega
  member_iff := by
    simp only [Life.answer]
    exact ⟨fun hin => absurd hin hout, fun heq => by omega⟩

theorem Fits.destroy (h : Fits l establishing destroyed waiting member) (hpos : l.destroys > 0) :
    Fits l.destroy establishing (destroyed + 1) waiting member where
  connecting_eq := h.connecting_eq
  connections_eq := h.connections_eq
  closes_eq := h.closes_eq
  ledger := by
    have heq := h.ledger
    simp only [Life.destroy]
    omega
  waiting_eq := h.waiting_eq
  member_iff := by
    rw [h.member_iff]
    simp only [Life.destroy]
    omega

/-- A connection that is to be destroyed is disconnected. -/
theorem Fits.down_of_destroys (h : Fits l establishing destroyed waiting member)
    (hpos : l.destroys > 0) : l.disconnected = true := by
  have hledger := h.ledger
  have hcloses := h.closes_eq
  cases hd : l.disconnected with
  | true => rfl
  | false =>
    rw [hd] at hcloses
    simp only [Bool.false_eq_true, if_false] at hcloses
    omega

end Fits

/-! ## The invariant -/

/-- The closures of `handleCloseInLoop` for connection `i` that are queued or owed. -/
def waiting (s : TcpServer) (owed : Option Nat) (i : Nat) : Nat :=
  s.funcs.count i + if owed = some i then 1 else 0

/-- What holds of a connection. -/
structure Settled (s : TcpServer) (owed : Option Nat) (i : Nat) (conn : Conn) : Prop where
  wired : conn.impl.Wired
  early : conn.establishing = true →
    conn.impl.ioChannel.events = Channel.kNoneEvent ∧ conn.active = []
  failed : s.failed = false → conn.impl.failed = false
  fits : Fits conn.impl.life conn.establishing conn.destroyed (s.waiting owed i) (i ∈ s.connSet)

structure Inv (owed : Option Nat) (s : TcpServer) : Prop where
  conns : ∀ i conn, s.conns[i]? = some conn → s.Settled owed i conn
  funcs_lt : ∀ i ∈ s.funcs, i < s.conns.length
  set_lt : ∀ i ∈ s.connSet, i < s.conns.length
  erased : ∀ n ∈ s.erased, n = 1

variable {s s' : TcpServer} {owed owed' : Option Nat} {i : Nat} {conn : Conn}

theorem Settled.of_same {j : Nat} (h : s.Settled owed j conn)
    (hfailed : s'.failed = false → s.failed = false)
    (hwaiting : s'.waiting owed' j = s.waiting owed j)
    (hset : j ∈ s'.connSet ↔ j ∈ s.connSet) : s'.Settled owed' j conn where
  wired := h.wired
  early := h.early
  failed hf := h.failed (hfailed hf)
  fits := by
    rw [hwaiting, propext hset]
    exact h.fits

/-- A connection with an event under way is established. -/
theorem Settled.of_active (h : s.Settled owed i conn) (hactive : conn.active ≠ []) :
    conn.establishing = false := by
  cases hest : conn.establishing with
  | false => rfl
  | true => exact absurd (h.early hest).2 hactive

/-- Before it is established, no event is registered. -/
theorem Settled.of_registered (h : s.Settled owed i conn)
    (hready : conn.impl.ioChannel.events ≠ Channel.kNoneEvent) : conn.establishing = false := by
  cases hest : conn.establishing with
  | false => rfl
  | true => exact absurd (h.early hest).1 hready

/-- One connection is replaced, and the others stay as they are. -/
theorem Inv.set (h : Inv owed s) (hconns : s'.conns = s.conns.set i conn)
    (hfailed : s'.failed = false → s.failed = false) (hsettled : s'.Settled owed' i conn)
    (hother : ∀ j, j ≠ i → s'.waiting owed' j = s.waiting owed j ∧
      (j ∈ s'.connSet ↔ j ∈ s.connSet))
    (hfuncs : ∀ j ∈ s'.funcs, j ∈ s.funcs) (hset : ∀ j ∈ s'.connSet, j ∈ s.connSet)
    (herased : ∀ n ∈ s'.erased, n = 1) : Inv owed' s' where
  conns j conn' hj := by
    rw [hconns] at hj
    by_cases hji : j = i
    · subst hji
      have heq : conn = conn' := by
        by_cases hlt : j < s.conns.length
        · simpa [hlt] using hj
        · simp [hlt] at hj
      rw [← heq]
      exact hsettled
    · rw [List.getElem?_set_ne (Ne.symm hji)] at hj
      exact (h.conns j conn' hj).of_same hfailed (hother j hji).1 (hother j hji).2
  funcs_lt j hj := by
    rw [hconns, List.length_set]
    exact h.funcs_lt j (hfuncs j hj)
  set_lt j hj := by
    rw [hconns, List.length_set]
    exact h.set_lt j (hset j hj)
  erased := herased

/-- The queue and the debt change together. -/
theorem Inv.requeue (h : Inv owed s) {funcs : List Nat}
    (hwaiting : ∀ j, ({ s with funcs := funcs }).waiting owed' j = s.waiting owed j)
    (hfuncs : ∀ j ∈ funcs, j < s.conns.length) : Inv owed' { s with funcs := funcs } where
  conns j conn hj := (h.conns j conn hj).of_same (fun hf => hf) (hwaiting j) Iff.rfl
  funcs_lt := hfuncs
  set_lt := h.set_lt
  erased := h.erased

theorem failed_setConn (hf : (s.setConn i conn).failed = false) :
    s.failed = false ∧ conn.impl.failed = false := by
  simpa [setConn] using hf

/-- A connection changes and pays or makes its debt. -/
theorem Inv.setConn (h : Inv owed s) (hwired : conn.impl.Wired)
    (hearly : conn.establishing = true →
      conn.impl.ioChannel.events = Channel.kNoneEvent ∧ conn.active = [])
    (hfits : Fits conn.impl.life conn.establishing conn.destroyed (s.waiting owed' i)
      (i ∈ s.connSet))
    (hother : ∀ j, j ≠ i → s.waiting owed' j = s.waiting owed j) :
    Inv owed' (s.setConn i conn) :=
  h.set rfl (fun hf => (failed_setConn hf).1)
    ⟨hwired, hearly, fun hf => (failed_setConn hf).2, hfits⟩
    (fun j hj => ⟨hother j hj, Iff.rfl⟩) (fun _ hj => hj) (fun _ hj => hj) h.erased

/-! ## Closing -/

/-- `handleCloseInLoop` finds the connection in the set. -/
theorem handleCloseInLoop_eq (h : Inv (some i) s) (hf : s.failed = false)
    (hi : s.conns[i]? = some conn) :
    s.handleCloseInLoop i =
      { s with
        connSet := s.connSet.erase i
        erased := s.erased ++ [1] }.setConn i
          { conn with impl := conn.impl.step (.queueDestroyed, []) } := by
  have hfits := (h.conns i conn hi).fits
  have hmem : i ∈ s.connSet := by
    rw [waiting, if_pos rfl] at hfits
    exact hfits.mem
  simp [handleCloseInLoop, hmem, hf, hi]

theorem inv_handleCloseInLoop (h : Inv (some i) s) (hf : s.failed = false)
    (hi : s.conns[i]? = some conn) : Inv none (s.handleCloseInLoop i) := by
  have hconn := h.conns i conn hi
  have hfits := hconn.fits
  rw [waiting, if_pos rfl] at hfits
  have hpos : conn.impl.closing > 0 := by
    have hwaiting : s.funcs.count i + 1 = conn.impl.closing := hfits.waiting_eq
    omega
  obtain ⟨hlife, hfailed⟩ :=
    TcpConnectionImpl.life_queueDestroyed (hconn.failed hf) hpos []
  rw [handleCloseInLoop_eq h hf hi]
  -- the debt becomes the closure of `connectDestroyed` in the loop of the connection
  refine h.set rfl (fun _ => hf) ⟨?_, ?_, ?_, ?_⟩ ?_ (fun _ hj => hj) ?_ ?_
  · exact TcpConnectionImpl.wired_step hconn.wired .queueDestroyed []
  · intro hest
    have hch : (conn.impl.step (.queueDestroyed, [])).ioChannel = conn.impl.ioChannel := by
      rw [TcpConnectionImpl.step_queueDestroyed [] (hconn.failed hf), if_pos hpos]
      rfl
    rw [hch]
    exact hconn.early hest
  · exact fun _ => hfailed
  · show Fits (conn.impl.step (.queueDestroyed, [])).life _ _ _ _
    rw [hlife]
    exact hfits.answer (by simp [TcpServer.setConn])
  · intro j hj
    refine ⟨?_, by simp [TcpServer.setConn, hj]⟩
    have hne : i ≠ j := Ne.symm hj
    simp [waiting, TcpServer.setConn, hne]
  · intro j hj
    exact Finset.mem_of_mem_erase hj
  · intro n hn
    rcases List.mem_append.mp hn with hold | hnew
    · exact h.erased n hold
    · exact List.mem_singleton.mp hnew

theorem inv_connectionClosed (h : Inv (some i) s) (hf : s.failed = false)
    (hi : s.conns[i]? = some conn) (ioLoop : Nat) : Inv none (s.connectionClosed i ioLoop) := by
  unfold connectionClosed
  split
  · exact inv_handleCloseInLoop h hf hi
  · refine h.requeue (fun j => ?_) fun j hj => ?_
    · by_cases hj : i = j
      · simp [waiting, hj]
      · simp [waiting, hj]
    · rcases List.mem_append.mp hj with hold | hnew
      · exact h.funcs_lt j hold
      · rw [List.mem_singleton.mp hnew]
        exact (List.getElem?_eq_some_iff.mp hi).1

/-! ## A step of one connection -/

/-- What an operation does to the life of its connection. -/
inductive Outcome (c : TcpConnectionImpl) (op : TcpConnectionImpl.Op) (rs : List SysRet) :
    Prop where
  | stays (life_eq : (c.step (op, rs)).life = c.life) (removes : ¬ c.Removes op)
  | closes (life_eq : (c.step (op, rs)).life = c.life.close) (removes : ¬ c.Removes op)
      (up : c.life.disconnected = false) (established : c.life.connecting = false)
      (failed : (c.step (op, rs)).failed = false)
  | destroys (life_eq : (c.step (op, rs)).life = c.life.destroy) (removes : c.Removes op)
      (pending : c.life.destroys > 0)

theorem inv_stepConn (h : Inv none s) (hf : s.failed = false) (hi : s.conns[i]? = some conn)
    {op : TcpConnectionImpl.Op} {rs : List SysRet} (hout : Outcome conn.impl op rs)
    (hearly : conn.establishing = true →
      (conn.impl.step (op, rs)).ioChannel = conn.impl.ioChannel) :
    Inv none (s.stepConn i conn op rs) := by
  have hconn := h.conns i conn hi
  have hwired := TcpConnectionImpl.wired_step hconn.wired op rs
  have hquiet : conn.establishing = true →
      (conn.impl.step (op, rs)).ioChannel.events = Channel.kNoneEvent ∧ conn.active = [] := by
    intro hest
    rw [hearly hest]
    exact hconn.early hest
  unfold stepConn
  dsimp only
  cases hout with
  | stays heq hstay =>
    have hclosing : (conn.impl.step (op, rs)).closing = conn.impl.closing :=
      congrArg Life.closing heq
    rw [if_neg hstay, if_neg (by rw [hclosing]; exact Nat.lt_irrefl _)]
    refine h.setConn hwired hquiet ?_ fun _ _ => rfl
    show Fits (conn.impl.step (op, rs)).life _ _ _ _
    rw [heq]
    exact hconn.fits
  | closes heq hstay hup hest hfailed =>
    have hclosing : (conn.impl.step (op, rs)).closing = conn.impl.closing + 1 :=
      congrArg Life.closing heq
    rw [if_neg hstay, if_pos (by rw [hclosing]; exact Nat.lt_succ_self _)]
    -- `closeCallback_` has run: connection `i` is owed `handleCloseInLoop`.
    have howed : Inv (some i) (s.setConn i { conn with impl := conn.impl.step (op, rs) }) := by
      refine h.setConn hwired hquiet ?_ fun j hj => ?_
      · show Fits (conn.impl.step (op, rs)).life _ _ _ _
        rw [heq]
        have hwaiting : s.waiting (some i) i = s.waiting none i + 1 := by simp [waiting]
        rw [hwaiting]
        exact hconn.fits.close hup hest
      · have hne : i ≠ j := Ne.symm hj
        simp [waiting, hne]
    have hget : (s.setConn i { conn with impl := conn.impl.step (op, rs) }).conns[i]? =
        some { conn with impl := conn.impl.step (op, rs) } := by
      have hlt := (List.getElem?_eq_some_iff.mp hi).1
      simp [setConn, hlt]
    refine inv_connectionClosed howed ?_ hget conn.ioLoop
    simp [setConn, hf, hfailed]
  | destroys heq hremoves hpos =>
    have hclosing : (conn.impl.step (op, rs)).closing = conn.impl.closing :=
      congrArg Life.closing heq
    rw [if_pos hremoves, if_neg (by rw [hclosing]; exact Nat.lt_irrefl _)]
    refine h.setConn hwired hquiet ?_ fun _ _ => rfl
    show Fits (conn.impl.step (op, rs)).life _ _ _ _
    rw [heq]
    exact hconn.fits.destroy hpos

theorem life_up {c : TcpConnectionImpl} (h : c.status = .connected ∨ c.status = .disconnecting) :
    c.life.disconnected = false ∧ c.life.connecting = false := by
  rcases h with h | h <;> simp [TcpConnectionImpl.life, h]

theorem removes_destroys {c : TcpConnectionImpl} {op : TcpConnectionImpl.Op} (h : c.Removes op) :
    c.life.destroys > 0 := by
  cases op with
  | runFunc =>
    obtain ⟨fs, hfs⟩ := List.head?_eq_some_iff.mp h
    simp [TcpConnectionImpl.life, hfs]
  | _ => exact False.elim h

/-- What is no event that may close. -/
theorem outcome_of_moves (hconn : s.Settled none i conn) (hf : conn.impl.failed = false)
    {op : TcpConnectionImpl.Op} (hop : op.closing = false) (rs : List SysRet) :
    Outcome conn.impl op rs := by
  by_cases hremoves : conn.impl.Removes op
  · have hpos := removes_destroys hremoves
    have hdown : conn.impl.status ≠ .connected := by
      have hdisc : decide (conn.impl.status = .disconnected) = true :=
        hconn.fits.down_of_destroys hpos
      rw [of_decide_eq_true hdisc]
      decide
    exact .destroys (TcpConnectionImpl.life_destroys hf hremoves hdown rs) hremoves hpos
  · cases TcpConnectionImpl.moves_step hconn.wired hf hop hremoves rs with
    | stays heq => exact .stays heq hremoves
    | closes hup heq hfailed =>
      exact .closes heq hremoves (life_up hup).1 (life_up hup).2 (hfailed.trans hf)

/-- A callback of an event, while it does not close again. -/
theorem outcome_of_callback {c : TcpConnectionImpl} (hf : c.failed = false)
    (hwired : c.Wired) (hest : c.life.connecting = false) {now : Nat}
    {ret : TcpConnectionImpl.ReadRet} {cb : Channel.Callback} {op : TcpConnectionImpl.Op}
    (hop : callbackOp now ret cb = some op)
    (honce : ends ret cb = true → c.status ≠ .disconnected) (rs : List SysRet) :
    Outcome c op rs := by
  -- `close` and a `read` that ends are what closes the connection
  cases cb with
  | error => cases hop
  | close =>
    cases hop
    have hstep := TcpConnectionImpl.step_closeCallback rs hf
    refine .closes ?_ nofun (decide_eq_false (honce rfl)) hest ?_
    · rw [hstep]
      exact TcpConnectionImpl.life_handleClose c
    · rw [hstep]
      exact hf
  | read =>
    cases hop
    have hstep := TcpConnectionImpl.step_readCallback rs hf now ret
    cases hret : ret.ends with
    | true =>
      obtain ⟨hlife, hfailed⟩ := TcpConnectionImpl.life_readCallback_ends (c := c) now hret
      refine .closes ?_ nofun (decide_eq_false (honce hret)) hest ?_
      · rw [hstep]
        exact hlife
      · rw [hstep]
        exact hfailed.trans hf
    | false =>
      refine .stays ?_ nofun
      rw [hstep]
      exact TcpConnectionImpl.life_readCallback now hret
  | write =>
    cases hop
    refine .stays ?_ nofun
    rw [TcpConnectionImpl.step_writeCallback rs hf]
    exact (TcpConnectionImpl.kept_writeCallback rs hwired.stays_open).life_eq
      (TcpConnectionImpl.told_writeCallback rs hwired.stays_open)

/-! ## New connections -/

theorem wired_establish (h : conn.impl.Wired) : conn.establish.impl.Wired :=
  h.of_fields rfl rfl rfl rfl (fun _ hid => hid) fun _ hf => .inl hf

theorem life_establish (h : conn.impl.life.connecting = true) :
    conn.establish.impl.life =
      { conn.impl.life with
        connecting := false
        connections := conn.impl.life.connections + 1 } := by
  have hs : conn.impl.status = .connecting := of_decide_eq_true h
  refine Life.ext ?_ rfl ?_ ?_ rfl rfl
  · simp [TcpConnectionImpl.life, Conn.establish, TcpConnectionImpl.connectEstablished, hs]
  · simp [TcpConnectionImpl.life, TcpConnectionImpl.told, Conn.establish,
      TcpConnectionImpl.connectEstablished, TcpConnectionImpl.assert]
  · simp [TcpConnectionImpl.life, TcpConnectionImpl.told, Conn.establish,
      TcpConnectionImpl.connectEstablished, TcpConnectionImpl.assert]

theorem fits_establish {waiting : Nat} {member : Prop}
    (h : Fits conn.impl.life true conn.destroyed waiting member) :
    Fits conn.establish.impl.life false conn.establish.destroyed waiting member := by
  rw [life_establish h.connecting_eq]
  refine ⟨rfl, ?_, h.closes_eq, h.ledger, h.waiting_eq, h.member_iff⟩
  have heq := h.connections_eq
  simp only [if_true] at heq
  simp only [Bool.false_eq_true, if_false]
  omega

theorem wired_makeConn (s : TcpServer) (ioLoop : Nat) (highWaterMark : Option Nat) :
    (s.makeConn ioLoop highWaterMark).impl.Wired where
  list_lt _ hid := nomatch hid
  streams _ hid := nomatch hid
  funcs _ hf := nomatch hf
  stays_open := rfl

theorem fits_makeConn (s : TcpServer) (ioLoop : Nat) (highWaterMark : Option Nat) :
    Fits (s.makeConn ioLoop highWaterMark).impl.life true 0 0 True :=
  ⟨rfl, rfl, rfl, rfl, rfl, (iff_true_intro rfl).symm⟩

/-- A connection is added. -/
theorem Inv.add (h : Inv none s) (nextLoopIdx : Nat) (hwired : conn.impl.Wired)
    (hearly : conn.establishing = true →
      conn.impl.ioChannel.events = Channel.kNoneEvent ∧ conn.active = [])
    (hfailed : conn.impl.failed = false)
    (hfits : Fits conn.impl.life conn.establishing conn.destroyed 0 True) :
    Inv none { s with
      nextLoopIdx := nextLoopIdx
      conns := s.conns ++ [conn]
      connSet := insert s.conns.length s.connSet } where
  conns i conn' hi := by
    -- an old connection, the new one, or none
    rcases Nat.lt_trichotomy i s.conns.length with hlt | rfl | hgt
    · rw [List.getElem?_append_left hlt] at hi
      exact (h.conns i conn' hi).of_same (fun hf => hf) rfl (by simp [Nat.ne_of_lt hlt])
    · rw [List.getElem?_concat_length, Option.some.injEq] at hi
      subst hi
      refine ⟨hwired, hearly, fun _ => hfailed, ?_⟩
      have hnew : s.funcs.count s.conns.length = 0 :=
        List.count_eq_zero.mpr fun hmem => Nat.lt_irrefl _ (h.funcs_lt _ hmem)
      simpa [waiting, hnew] using hfits
    · rw [List.getElem?_eq_none (by simp; omega)] at hi
      cases hi
  funcs_lt i hi := by
    have hlt := h.funcs_lt i hi
    simp only [List.length_append, List.length_singleton]
    omega
  set_lt i hi := by
    simp only [List.length_append, List.length_singleton]
    rcases Finset.mem_insert.mp hi with rfl | hold
    · exact Nat.lt_succ_self _
    · have hlt := h.set_lt i hold
      omega
  erased := h.erased

theorem inv_newConnection (h : Inv none s) (highWaterMark : Option Nat) :
    Inv none (s.newConnection highWaterMark) := by
  unfold newConnection
  split
  · exact h
  · rename_i ioLoop _
    have hwired := wired_makeConn s ioLoop highWaterMark
    have hfits := fits_makeConn s ioLoop highWaterMark
    by_cases hloop : ioLoop = s.loop
    · simp only [if_pos hloop]
      exact h.add _ (wired_establish hwired) nofun rfl (fits_establish hfits)
    · simp only [if_neg hloop]
      exact h.add _ hwired (fun _ => ⟨rfl, rfl⟩) rfl hfits

/-! ## One step of the server -/

theorem inv_call (h : Inv none s) (hf : s.failed = false) (hi : s.conns[i]? = some conn)
    {op : TcpConnectionImpl.Op} (hop : s.accepts conn op = true) (rs : List SysRet) :
    Inv none (s.stepConn i conn op rs) := by
  have hconn := h.conns i conn hi
  have hopen := hconn.failed hf
  have hclosing : op.closing = false := by
    cases op <;> first | rfl | cases hop
  refine inv_stepConn h hf hi (outcome_of_moves hconn hopen hclosing rs) fun hest => ?_
  -- before it is established, only `stop` closes it, from another loop
  have hstop : op = .forceClose false := by
    unfold accepts at hop
    rw [hest] at hop
    split at hop <;> first | rfl | simp at hop
  rw [hstop, TcpConnectionImpl.step_forceClose rs false hopen]
  rfl

/-- The callback is taken off the list of the event. -/
theorem stepConn_setConn (hf : s.failed = false) (hconn : conn.impl.failed = false)
    (cbs : List Channel.Callback) (op : TcpConnectionImpl.Op) (rs : List SysRet) :
    (s.setConn i { conn with active := cbs }).stepConn i { conn with active := cbs } op rs
      = s.stepConn i { conn with active := cbs } op rs := by
  unfold stepConn setConn
  simp [hf, hconn]

theorem inv_active (h : Inv none s) (hi : s.conns[i]? = some conn)
    (hest : conn.establishing = false) (cbs : List Channel.Callback) :
    Inv none (s.setConn i { conn with active := cbs }) := by
  have hconn := h.conns i conn hi
  refine h.setConn hconn.wired (fun hearly => ?_) hconn.fits fun _ _ => rfl
  have htrue : conn.establishing = true := hearly
  rw [hest] at htrue
  cases htrue

theorem inv_callback (h : Inv none s) (hf : s.failed = false) (hi : s.conns[i]? = some conn)
    {cb : Channel.Callback} {cbs : List Channel.Callback} (hactive : conn.active = cb :: cbs)
    {now : Nat} {ret : TcpConnectionImpl.ReadRet} {op : TcpConnectionImpl.Op}
    (hop : callbackOp now ret cb = some op)
    (honce : ends ret cb = true → conn.impl.status ≠ .disconnected) (rs : List SysRet) :
    Inv none (s.stepConn i { conn with active := cbs } op rs) := by
  have hconn := h.conns i conn hi
  have hopen := hconn.failed hf
  have hest := hconn.of_active (hactive ▸ List.cons_ne_nil cb cbs)
  have hlt := (List.getElem?_eq_some_iff.mp hi).1
  have hset := inv_active h hi hest cbs
  rw [← stepConn_setConn hf hopen]
  refine inv_stepConn hset (by simp [setConn, hf, hopen]) (by simp [setConn, hlt]) ?_ ?_
  · exact outcome_of_callback hopen hconn.wired (hconn.fits.connecting_eq.trans hest) hop honce rs
  · intro htrue
    have hearly : conn.establishing = true := htrue
    rw [hest] at hearly
    cases hearly

theorem inv_step (h : Inv none s) {op : Op} (honce : s.closesAgain op = false) :
    Inv none (s.step op) := by
  unfold step
  split
  · exact h
  rename_i hf
  have hf : s.failed = false := Bool.eq_false_iff.mpr hf
  cases op with
  | newConnection highWaterMark => exact inv_newConnection h highWaterMark
  | connectEstablished i =>
    dsimp only
    split
    · rename_i conn hi
      split
      · rename_i hest
        have hconn := h.conns i conn hi
        have hfits := hconn.fits
        rw [hest] at hfits
        exact h.setConn (wired_establish hconn.wired) nofun (fits_establish hfits) fun _ _ => rfl
      · exact h
    · exact h
  | call i op rs =>
    dsimp only
    split
    · rename_i conn hi
      split
      · rename_i hop
        exact inv_call h hf hi hop rs
      · exact h
    · exact h
  | event i revents =>
    dsimp only
    split
    · rename_i conn hi
      split
      · rename_i hready
        have hregistered : conn.impl.ioChannel.events ≠ Channel.kNoneEvent := by
          intro hnone
          simp [Channel.isNoneEvent, hnone] at hready
        exact inv_active h hi ((h.conns i conn hi).of_registered hregistered) _
      · exact h
    · exact h
  | callback i now ret rs =>
    dsimp only
    split
    · rename_i conn hi
      split
      · exact h
      · rename_i cb cbs hactive
        split
        · rename_i op hop
          refine inv_callback h hf hi hactive hop (fun hends hdown => ?_) rs
          simp [closesAgain, hi, hf, hactive, hends, hdown] at honce
        · -- the error callback only logs
          have hest := (h.conns i conn hi).of_active (hactive ▸ List.cons_ne_nil cb cbs)
          exact inv_active h hi hest _
    · exact h
  | runFunc =>
    dsimp only
    split
    · exact h
    · rename_i i funcs hfuncs
      split
      · have hlt : i < s.conns.length := h.funcs_lt i (hfuncs ▸ List.mem_cons_self)
        -- off the queue, connection `i` is owed the call that is about to be made
        have howed : Inv (some i) { s with funcs := funcs } := by
          refine h.requeue (fun j => ?_) fun j hj => h.funcs_lt j ?_
          · by_cases hj : i = j
            · simp [waiting, hfuncs, hj]
            · simp [waiting, hfuncs, hj]
          · rw [hfuncs]
            exact List.mem_cons_of_mem i hj
        exact inv_handleCloseInLoop howed hf (List.getElem?_eq_getElem hlt)
      · exact h

theorem Inv.closedOnce (h : Inv none s) : s.ClosedOnce where
  conns conn hconn := by
    obtain ⟨i, hi⟩ := List.mem_iff_getElem?.mp hconn
    have hfits := (h.conns i conn hi).fits
    have hle : conn.closes ≤ 1 := hfits.closes_le
    have hcalls : conn.impl.calls.count .connection
        = (if conn.establishing then 0 else 1) + conn.closes := hfits.connections_eq
    have hledger : conn.impl.closing + conn.impl.funcs.count .connectDestroyed + conn.destroyed
        = conn.closes := hfits.ledger
    refine ⟨hle, ?_, by omega⟩
    unfold Conn.downs
    rw [hcalls]
    split <;> omega
  erased := h.erased

/-! ## Closing again -/

theorem closes_setConn {conn' : Conn} (hi : s.conns[i]? = some conn)
    (h : conn'.closes = conn.closes) :
    (s.setConn i conn').conns.map Conn.closes = s.conns.map Conn.closes := by
  obtain ⟨hlt, hget⟩ := List.getElem?_eq_some_iff.mp hi
  have hlen : i < (s.conns.map Conn.closes).length := by simpa using hlt
  have hold : (s.conns.map Conn.closes)[i] = conn.closes := by simp [hget]
  show (s.conns.set i conn').map Conn.closes = s.conns.map Conn.closes
  rw [List.map_set, h, ← hold, List.set_getElem_self]

/-- What the server does afterwards takes no call back. -/
theorem closes_connectionClosed (s : TcpServer) (i ioLoop : Nat) :
    (s.connectionClosed i ioLoop).conns.map Conn.closes = s.conns.map Conn.closes := by
  unfold connectionClosed
  split
  · unfold handleCloseInLoop
    generalize (if i ∈ s.connSet then 1 else 0) = n
    dsimp only
    split
    · rfl
    · split
      · rename_i conn hi
        refine closes_setConn hi ?_
        unfold Conn.closes TcpConnectionImpl.step
        dsimp only
        split
        · rfl
        · split <;> rfl
      · rfl
  · rfl

theorem two_closes_of_stepConn (conn : Conn) (hlt : i < s.conns.length)
    {op : TcpConnectionImpl.Op} (rs : List SysRet)
    (hlife : (conn.impl.step (op, rs)).life = conn.impl.life.close)
    (hcloses : conn.impl.life.closes = 1) :
    2 ∈ (s.stepConn i conn op rs).conns.map Conn.closes := by
  have htwo : (conn.impl.step (op, rs)).life.closes = 2 := by
    rw [hlife, Life.close, hcloses]
  have hset : ∀ destroyed, 2 ∈ (s.setConn i
      { conn with impl := conn.impl.step (op, rs), destroyed := destroyed }).conns.map
        Conn.closes := by
    intro destroyed
    refine List.mem_map.mpr ⟨_, List.mem_set hlt _, htwo⟩
  unfold stepConn
  dsimp only
  split
  · rw [closes_connectionClosed]
    exact hset _
  · exact hset _

/-- A second close is a second call of `closeCallback_`. -/
theorem not_closedOnce_of_closesAgain (h : Inv none s) {op : Op}
    (hagain : s.closesAgain op = true) : ¬ (s.step op).ClosedOnce := by
  cases op with
  | callback i now ret rs =>
    cases hi : s.conns[i]? with
    | none => simp [closesAgain, hi] at hagain
    | some conn =>
      obtain ⟨⟨hf, hdown⟩, cb, hcb, hends⟩ :
          (s.failed = false ∧ conn.impl.status = .disconnected) ∧
            ∃ cb, conn.active.head? = some cb ∧ ends ret cb = true := by
        simpa [closesAgain, hi, Option.any_eq_true] using hagain
      obtain ⟨cbs, hactive⟩ := List.head?_eq_some_iff.mp hcb
      have hconn := h.conns i conn hi
      have hopen := hconn.failed hf
      -- it is disconnected, so it has been closed once already
      have hcloses : conn.impl.life.closes = 1 := by
        have heq := hconn.fits.closes_eq
        rw [show conn.impl.life.disconnected = true from decide_eq_true hdown] at heq
        exact heq
      -- `handleClose` does not look at the status, it closes once more
      obtain ⟨op', hop, hlife⟩ : ∃ op', callbackOp now ret cb = some op' ∧
          (conn.impl.step (op', rs)).life = conn.impl.life.close := by
        cases cb with
        | close =>
          refine ⟨_, rfl, ?_⟩
          rw [TcpConnectionImpl.step_closeCallback rs hopen]
          exact TcpConnectionImpl.life_handleClose _
        | read =>
          refine ⟨_, rfl, ?_⟩
          rw [TcpConnectionImpl.step_readCallback rs hopen]
          exact (TcpConnectionImpl.life_readCallback_ends now hends).1
        | error | write => cases hends
      have hstep : s.step (.callback i now ret rs)
          = s.stepConn i { conn with active := cbs } op' rs := by
        simp [step, hf, hi, hactive, hop]
      intro honce
      have hmem := two_closes_of_stepConn { conn with active := cbs }
        (List.getElem?_eq_some_iff.mp hi).1 rs hlife hcloses
      rw [← hstep] at hmem
      obtain ⟨conn', hconn', heq⟩ := List.mem_map.mp hmem
      have hle := (honce.conns conn' hconn').1
      omega
  | newConnection highWaterMark => cases hagain
  | connectEstablished i => cases hagain
  | call i op rs => cases hagain
  | event i revents => cases hagain
  | runFunc => cases hagain

theorem inv_new (loop : Nat) (ioLoops : List Nat) (idleTimeout : Nat) :
    Inv none (new loop ioLoops idleTimeout) where
  conns _ _ hi := nomatch hi
  funcs_lt _ hi := nomatch hi
  set_lt _ hi := nomatch hi
  erased _ hn := nomatch hn

/-- **Closed once**: along a run every connection is closed once, its `erase` removes one and
it is destroyed once, exactly when no callback closes a connection that is disconnected. -/
theorem closedOnce_iff (loop : Nat) (ioLoops : List Nat) (idleTimeout : Nat) (ops : List Op) :
    Runs.Always step ClosedOnce (new loop ioLoops idleTimeout) ops ↔
      Runs.Along step (fun s op => s.closesAgain op = false) (new loop ioLoops idleTimeout) ops :=
  Runs.always_iff_along (I := Inv none) (H := fun _ _ => True) (fun _ h => h.closedOnce)
    (fun _ _ h _ honce => inv_step h honce)
    (fun _ _ h _ hagain => not_closedOnce_of_closesAgain h (Bool.eq_true_of_not_eq_false hagain))
    (inv_new loop ioLoops idleTimeout) (Runs.along_of_forall (fun _ _ => trivial) _ _)

/-- `forceClose` and then `sendFile` from another thread: the file registers the write event
again, and the hang-up that follows closes a second time. -/
theorem not_closedOnce_sendFile :
    ¬ Runs.Always step ClosedOnce (new 0 [1] 0)
      [.newConnection none, .connectEstablished 0, .call 0 (.forceClose false) [],
        .call 0 (.sendFile false ⟨false, some [7], 1⟩) [], .call 0 .runFunc [],
        .call 0 .runFunc [.again], .event 0 (Channel.POLLOUT ||| Channel.POLLHUP),
        .callback 0 0 (.error .EAGAIN) []] := by
  decide +kernel

end TcpServer

end XiaoNet
