import XiaoNet.Net.Connector

/-!
# One event, one attempt

The callbacks of a channel are bound to the `Connector` and look at `status_` only. The first
one ends the attempt of the channel; when `errorCallback_` starts the next attempt from there,
the other callbacks of the same event take it for theirs.

- `Isolated`: the callbacks after the first leave everything as it is.
- `overtakes`: the first callback leaves a new attempt behind, and there is a second callback.
- `isolated_iff`: the one is the case exactly when the other is not.
-/

namespace XiaoNet

namespace Connector

variable {c : Connector}

/-- These callbacks change nothing. -/
def Untouched (report : SocketReport) :
    List Channel.Callback → Connector → List Reaction → Prop
  | [], _, _ => True
  | cb :: cbs, c, rs =>
    (callback report c rs cb).1 = c ∧ Untouched report cbs c (callback report c rs cb).2

/-- The callbacks after the first change nothing. -/
def UntouchedLater (report : SocketReport) (cbs : List Channel.Callback) (c : Connector)
    (rs : List Reaction) : Prop :=
  match cbs with
  | [] => True
  | cb :: cbs => Untouched report cbs (callback report c rs cb).1 (callback report c rs cb).2

/-- The attempt of the channel is over after the first callback. What there is then is of
later attempts, and the other callbacks of the event leave it alone. -/
def Isolated (c : Connector) : Op → Prop
  | .event revents report rs =>
    c.failed = false → c.channelPtr.isSome = true → UntouchedLater report (calls revents) c rs
  | _ => True

instance Untouched.decidable (report : SocketReport) :
    (cbs : List Channel.Callback) → (c : Connector) → (rs : List Reaction) →
      Decidable (Untouched report cbs c rs)
  | [], _, _ => .isTrue trivial
  | cb :: cbs, c, rs =>
    have := Untouched.decidable report cbs c (callback report c rs cb).2
    inferInstanceAs (Decidable (_ ∧ _))

instance (report : SocketReport) (cbs : List Channel.Callback) (c : Connector)
    (rs : List Reaction) : Decidable (UntouchedLater report cbs c rs) :=
  match cbs with
  | [] => .isTrue trivial
  | cb :: cbs => inferInstanceAs (Decidable (Untouched report cbs (callback report c rs cb).1 _))

instance (c : Connector) : (op : Op) → Decidable (Isolated c op)
  | .event revents report rs =>
    inferInstanceAs (Decidable (_ → _ → UntouchedLater report (calls revents) c rs))
  | .start .. | .retryTimer .. | .stop | .stopElsewhere | .removeChannel =>
    inferInstanceAs (Decidable True)

/-- The calls of `errorCallback_` end with an attempt that its `connect` does not give up. -/
def leaves : List Reaction → Bool
  | .start errno :: rs => errno.connectCase ≠ .error || leaves rs
  | _ => false

/-- A second callback follows when the first has left an attempt. -/
def overtakes (c : Connector) : Op → Bool
  | .event revents _ rs =>
    !c.failed && c.channelPtr.isSome && c.status = .Connecting && 2 ≤ (calls revents).length &&
      leaves rs
  | _ => false

/-- The write callback is the last one. -/
theorem first_of_two {revents : BitVec 32} {cb cb' : Channel.Callback}
    {cbs : List Channel.Callback} (h : calls revents = cb :: cb' :: cbs) :
    cb = .close ∨ cb = .error := by
  unfold calls Channel.handleEventSafely at h
  split_ifs at h <;> simp at h <;> simp [← h.1]

theorem assert_true (c : Connector) : c.assert true = c := rfl

/-! ## What the calls of `errorCallback_` leave -/

/-- Ready for the next attempt: what a callback that has ended one leaves. -/
structure Ready (c : Connector) : Prop where
  failed : c.failed = false
  status : c.status = .Disconnected
  channelPtr : c.channelPtr = none
  socketHanded : c.socketHanded = true

/-- An attempt is under way, or was left with its socket. -/
structure Left (c : Connector) : Prop where
  failed : c.failed = false
  socketHanded : c.socketHanded = false
  status : c.status = .Disconnected ∨
    c.status = .Connecting ∧ ∃ b, c.channelPtr = some b ∧ c.sockets[b]? = some .opened

theorem startInLoop_of_ready (h : c.Ready) (errno : Errno) :
    { c with connect := true }.startInLoop errno = { c with connect := true }.connectTo errno := by
  simp [startInLoop, assert, h.status, h.failed]

theorem connecting_left (h : c.Ready) :
    ({ c with connect := true }.newSocket.connecting c.sockets.length).Left := by
  refine ⟨?_, ?_, Or.inr ⟨?_, c.sockets.length, rfl, ?_⟩⟩
  all_goals simp [connecting, newSocket, assert, h.failed, h.channelPtr]

theorem retry_left (h : c.Ready) :
    (if c.retry then
      { c with connect := true }.newSocket.retrySocket (some c.sockets.length)
    else { c with connect := true }.newSocket).Left := by
  cases hr : c.retry with
  | true =>
    refine ⟨?_, ?_, Or.inl ?_⟩
    all_goals simp [retrySocket, closeSocket, newSocket, assert, h.failed]
  | false => exact ⟨h.failed, rfl, Or.inl h.status⟩

theorem error_ready (h : c.Ready) :
    ({ { c with connect := true }.newSocket with socketHanded := true }.closeSocket
      (some c.sockets.length)).Ready :=
  ⟨h.failed, h.status, h.channelPtr, rfl⟩

/-- What the chain of calls of `errorCallback_` ends with. -/
theorem errorCallback_of_ready (rs : List Reaction) (h : c.Ready) :
    (leaves rs = false → (errorCallback rs c).1.Ready) ∧
      (leaves rs = true → (errorCallback rs c).1.Left) := by
  -- by induction on the reactions: only a `connect` that gives up at once goes on
  induction rs generalizing c with
  | nil => exact ⟨fun _ => h, nofun⟩
  | cons r rs ih =>
    cases r with
    | nothing => exact ⟨fun _ => h, nofun⟩
    | start errno =>
      have hstart := startInLoop_of_ready h errno
      cases hcase : errno.connectCase with
      | connecting =>
        have hleft := connecting_left h
        have hto : { c with connect := true }.connectTo errno
            = { c with connect := true }.newSocket.connecting c.sockets.length := by
          simp [connectTo, hcase]
        simp only [leaves, errorCallback, hstart, hto, hcase]
        exact ⟨by simp, fun _ => by simpa using hleft⟩
      | retry =>
        have hleft := retry_left h
        have hto : { c with connect := true }.connectTo errno
            = if c.retry then
                { c with connect := true }.newSocket.retrySocket (some c.sockets.length)
              else { c with connect := true }.newSocket := by
          simp [connectTo, hcase, newSocket]
        simp only [leaves, errorCallback, hstart, hto, hcase]
        exact ⟨by simp, fun _ => by simpa using hleft⟩
      | error =>
        have hready := error_ready h
        have hto : { c with connect := true }.connectTo errno
            = { { c with connect := true }.newSocket with socketHanded := true }.closeSocket
                (some c.sockets.length) := by
          simp [connectTo, hcase, newSocket]
        simpa [leaves, errorCallback, hstart, hto, hcase, hready.failed] using ih hready

theorem closeSocket_ready (h : c.Ready) (fd : Option Nat) : (c.closeSocket fd).Ready := by
  cases fd with
  | none => exact h
  | some fd => exact ⟨h.failed, h.status, h.channelPtr, h.socketHanded⟩

theorem retrySocket_ready (h : c.Ready) (hr : c.retry = true) (fd : Option Nat) :
    (c.retrySocket fd).Ready := by
  have hclose := closeSocket_ready h fd
  unfold retrySocket
  simp only [hr, assert_true]
  split_ifs
  · exact ⟨hclose.failed, rfl, hclose.channelPtr, hclose.socketHanded⟩
  · exact ⟨hclose.failed, rfl, hclose.channelPtr, hclose.socketHanded⟩

/-- `handleError` ends the attempt before it calls `errorCallback_`. -/
theorem handleError_of_connecting (hf : c.failed = false) (hs : c.status = .Connecting)
    (rs : List Reaction) :
    ∃ c' : Connector, c'.Ready ∧ c.handleError rs = errorCallback rs c' := by
  let ended : Connector :=
    { c with socketHanded := true, status := .Disconnected, channelPtr := none }
  have hended : ended.Ready := ⟨hf, rfl, rfl, rfl⟩
  have heq : c.handleError rs = errorCallback rs
      (if c.retry then ended.retrySocket c.channelPtr else ended.closeSocket c.channelPtr) := by
    unfold handleError
    rw [if_pos hs]
    rfl
  cases hr : c.retry with
  | true => exact ⟨_, retrySocket_ready hended hr c.channelPtr, by rw [heq, hr]; rfl⟩
  | false => exact ⟨_, closeSocket_ready hended c.channelPtr, by rw [heq, hr]; rfl⟩

/-! ## The callbacks after the first -/

/-- No attempt is under way and `socketHanded_` is set: nothing to change. -/
structure Over (c : Connector) : Prop where
  failed : c.failed = false
  status : c.status = .Disconnected
  socketHanded : c.socketHanded = true

theorem Ready.over (h : c.Ready) : c.Over := ⟨h.failed, h.status, h.socketHanded⟩

theorem handleError_of_over (h : c.Over) (rs : List Reaction) : c.handleError rs = (c, rs) := by
  have hset : { c with socketHanded := true } = c := by rw [← h.socketHanded]
  unfold handleError
  rw [hset, if_neg (by simp [h.status])]

theorem handleWrite_of_over (h : c.Over) (report : SocketReport) (rs : List Reaction) :
    c.handleWrite report rs = (c, rs) := by
  have hset : { c with socketHanded := true } = c := by rw [← h.socketHanded]
  unfold handleWrite
  rw [hset, if_neg (by simp [h.status]), decide_eq_true h.status, assert_true]

theorem callback_of_over (h : c.Over) (report : SocketReport) (rs : List Reaction)
    (cb : Channel.Callback) : callback report c rs cb = (c, rs) := by
  cases cb <;> simp [callback, h.failed, handleError_of_over h, handleWrite_of_over h]

theorem untouched_of_over (h : c.Over) (report : SocketReport) (rs : List Reaction)
    (cbs : List Channel.Callback) : Untouched report cbs c rs := by
  induction cbs with
  | nil => trivial
  | cons cb cbs ih =>
    have hcb := callback_of_over h report rs cb
    exact ⟨by rw [hcb], by rw [hcb]; exact ih⟩

/-! ## A socket that is done with stays so -/

/-- Socket `b` was closed or given away. -/
def Done (b : Nat) (c : Connector) : Prop := ∃ x, c.sockets[b]? = some x ∧ x ≠ .opened

variable {b : Nat}

theorem Done.set {x : SocketState} (hx : x ≠ .opened) (fd : Nat) (h : c.Done b) :
    ∃ y, (c.sockets.set fd x)[b]? = some y ∧ y ≠ .opened := by
  obtain ⟨y, hy, hne⟩ := h
  by_cases hfd : fd = b
  · subst hfd
    have hlen : fd < c.sockets.length := (List.getElem?_eq_some_iff.mp hy).1
    exact ⟨x, by simp [hlen], hx⟩
  · exact ⟨y, by rw [List.getElem?_set_ne hfd, hy], hne⟩

theorem Done.closeSocket (h : c.Done b) (fd : Option Nat) : (c.closeSocket fd).Done b := by
  cases fd with
  | none => exact h
  | some fd => exact h.set (by simp) fd

@[simp] theorem sockets_assert (p : Bool) : (c.assert p).sockets = c.sockets := by
  unfold assert
  split <;> rfl

theorem sockets_retrySocket (fd : Option Nat) :
    (c.retrySocket fd).sockets = ((c.assert c.retry).closeSocket fd).sockets := by
  unfold retrySocket
  dsimp only
  split_ifs <;> rfl

theorem Done.retrySocket (h : c.Done b) (fd : Option Nat) : (c.retrySocket fd).Done b := by
  have hassert : (c.assert c.retry).Done b := by simpa [Done] using h
  simpa [Done, sockets_retrySocket] using hassert.closeSocket fd

theorem Done.newSocket (h : c.Done b) : c.newSocket.Done b := by
  obtain ⟨x, hx, hne⟩ := h
  have hlen : b < c.sockets.length := (List.getElem?_eq_some_iff.mp hx).1
  exact ⟨x, by simpa [Connector.newSocket, List.getElem?_append_left hlen] using hx, hne⟩

theorem Done.connectTo (h : c.Done b) (errno : Errno) : (c.connectTo errno).Done b := by
  have hnew := h.newSocket
  unfold Connector.connectTo
  split
  · simpa [Done, connecting] using hnew
  · split_ifs
    · exact hnew.retrySocket _
    · exact hnew
  · exact Done.closeSocket (c := { c.newSocket with socketHanded := true }) hnew _

theorem Done.startInLoop (h : c.Done b) (errno : Errno) : (c.startInLoop errno).Done b := by
  have hassert : (c.assert (c.status = .Disconnected)).Done b := by simpa [Done] using h
  unfold Connector.startInLoop
  dsimp only
  split_ifs
  · exact hassert.connectTo errno
  · exact hassert

theorem Done.errorCallback {rs : List Reaction} (h : c.Done b) : (errorCallback rs c).1.Done b := by
  induction rs generalizing c with
  | nil => exact h
  | cons r rs ih =>
    cases r with
    | nothing => exact h
    | start errno =>
      have hstart := Done.startInLoop (c := { c with connect := true }) h errno
      unfold Connector.errorCallback
      dsimp only
      split_ifs
      · exact ih hstart
      · exact hstart

/-! ## A callback that finds a new attempt -/

theorem Done.ne {c' : Connector} (h : c'.Done b) (ho : c.sockets[b]? = some .opened) : c' ≠ c := by
  rintro rfl
  obtain ⟨x, hx, hne⟩ := h
  rw [ho] at hx
  exact hne (Option.some.inj hx).symm

theorem closeSocket_done (ho : c.sockets[b]? = some .opened) : (c.closeSocket (some b)).Done b := by
  have hlen : b < c.sockets.length := (List.getElem?_eq_some_iff.mp ho).1
  exact ⟨.closed, by simp [closeSocket, hlen], by simp⟩

theorem retrySocket_done (ho : c.sockets[b]? = some .opened) : (c.retrySocket (some b)).Done b := by
  have hassert : (c.assert c.retry).sockets[b]? = some .opened := by simpa using ho
  simpa [Done, sockets_retrySocket] using closeSocket_done hassert

/-- `handleError` closes the socket of the attempt that is under way. -/
theorem handleError_done (hs : c.status = .Connecting) (hb : c.channelPtr = some b)
    (ho : c.sockets[b]? = some .opened) (rs : List Reaction) : (c.handleError rs).1.Done b := by
  unfold handleError
  rw [if_pos hs]
  apply Done.errorCallback
  simp only [hb]
  split_ifs
  · exact retrySocket_done ho
  · exact closeSocket_done ho

/-- `handleWrite` closes it or gives it away. -/
theorem handleWrite_done (hs : c.status = .Connecting) (hb : c.channelPtr = some b)
    (ho : c.sockets[b]? = some .opened) (report : SocketReport) (rs : List Reaction) :
    (c.handleWrite report rs).1.Done b := by
  have hlen : b < c.sockets.length := (List.getElem?_eq_some_iff.mp ho).1
  unfold handleWrite
  rw [if_pos hs]
  simp only [removeAndResetChannel, hb]
  split_ifs
  · exact Done.errorCallback (retrySocket_done ho)
  · exact Done.errorCallback (closeSocket_done ho)
  · exact ⟨.handed, by simp [hlen], by simp⟩
  · exact closeSocket_done ho

theorem callback_ne_of_left (h : c.Left) {cb : Channel.Callback} (hcb : cb ≠ .read)
    (report : SocketReport) (rs : List Reaction) : (callback report c rs cb).1 ≠ c := by
  have hcallback : (callback report c rs cb).1 = (c.handleError rs).1 ∨
      (callback report c rs cb).1 = (c.handleWrite report rs).1 := by
    cases cb <;> simp [callback, h.failed] at hcb ⊢
  obtain hs | ⟨hs, b, hb, ho⟩ := h.status
  · -- left with its socket: `socketHanded_` is set
    intro heq
    have hset : (callback report c rs cb).1.socketHanded = true := by
      obtain hc | hc := hcallback <;> rw [hc]
      · simp [handleError, hs]
      · simp [handleWrite, hs, assert]
    rw [heq, h.socketHanded] at hset
    cases hset
  · -- under way: its socket is closed or given away
    obtain hc | hc := hcallback <;> rw [hc]
    · exact (handleError_done hs hb ho rs).ne ho
    · exact (handleWrite_done hs hb ho report rs).ne ho

/-! ## One event -/

/-- A channel is registered while no connection was made with it. -/
def Inv (c : Connector) : Prop := c.status = .Connected → c.channelPtr = none

theorem isolated_iff_of_two (hf : c.failed = false) (hs : c.status = .Connecting)
    {cb cb' : Channel.Callback} {cbs : List Channel.Callback} (hcb : cb = .close ∨ cb = .error)
    (hcb' : cb' ≠ .read) (report : SocketReport) (rs : List Reaction) :
    UntouchedLater report (cb :: cb' :: cbs) c rs ↔ leaves rs = false := by
  have hfirst : callback report c rs cb = c.handleError rs := by
    obtain rfl | rfl := hcb <;> simp [callback, hf]
  obtain ⟨ended, hended, heq⟩ := handleError_of_connecting hf hs rs
  obtain ⟨hready, hleft⟩ := errorCallback_of_ready rs hended
  rw [UntouchedLater, hfirst, heq]
  cases hl : leaves rs with
  | false => exact iff_of_true (untouched_of_over (hready hl).over report _ _) rfl
  | true =>
    constructor
    · intro h
      exact absurd h.1 (callback_ne_of_left (hleft hl) hcb' report _)
    · intro hfalse
      cases hfalse

theorem callback_over (hf : c.failed = false) (hs : c.status = .Disconnected)
    {cb : Channel.Callback} (hcb : cb ≠ .read) (report : SocketReport) (rs : List Reaction) :
    (callback report c rs cb).1.Over := by
  cases cb with
  | read => exact absurd rfl hcb
  | close | error => constructor <;> simp [callback, hf, handleError, hs]
  | write => constructor <;> simp [callback, hf, handleWrite, hs, assert]

theorem ne_read_of_mem {revents : BitVec 32} {cb : Channel.Callback} (h : cb ∈ calls revents) :
    cb ≠ .read := by
  simpa using (List.mem_filter.mp h).2

theorem isolated_iff_step (hi : c.Inv) (op : Op) : Isolated c op ↔ c.overtakes op = false := by
  cases op with
  | start | retryTimer | stop | stopElsewhere | removeChannel =>
    exact iff_of_true trivial rfl
  | event revents report rs =>
    by_cases hon : c.failed = false ∧ c.channelPtr.isSome = true
    · obtain ⟨hf, hch⟩ := hon
      simp only [Isolated, overtakes, hf, hch, true_implies, Bool.not_false, Bool.true_and]
      match hcalls : calls revents with
      | [] => simp [UntouchedLater]
      | [cb] => simp [UntouchedLater, Untouched]
      | cb :: cb' :: cbs =>
        have hcb : cb ≠ .read := ne_read_of_mem (hcalls ▸ List.mem_cons_self)
        have hcb' : cb' ≠ .read :=
          ne_read_of_mem (hcalls ▸ List.mem_cons_of_mem _ List.mem_cons_self)
        cases hs : c.status with
        | Connected => simp [hi hs] at hch
        | Disconnected =>
          -- the attempt was stopped before the event: no callback does anything
          simp only [reduceCtorEq, decide_false, Bool.false_and, iff_true]
          exact untouched_of_over (callback_over hf hs hcb report rs) report _ _
        | Connecting => simpa using isolated_iff_of_two hf hs (first_of_two hcalls) hcb' report rs
    · have hoff : c.overtakes (.event revents report rs) = false := by
        cases hf : c.failed <;> cases hch : c.channelPtr.isSome <;> simp_all [overtakes]
      exact ⟨fun _ => hoff, fun _ hf hch => absurd ⟨hf, hch⟩ hon⟩

/-! ## The invariant -/

theorem Inv.of_none (h : c.channelPtr = none) : c.Inv := fun _ => h

theorem Inv.of_status (h : c.status ≠ .Connected) : c.Inv := fun hs => absurd hs h

theorem Inv.assert (h : c.Inv) (p : Bool) : (c.assert p).Inv := by
  unfold Connector.assert
  split_ifs
  · exact h
  · exact h

theorem Inv.closeSocket (h : c.Inv) (fd : Option Nat) : (c.closeSocket fd).Inv := by
  cases fd with
  | none => exact h
  | some fd => exact h

theorem retrySocket_inv (c : Connector) (fd : Option Nat) : (c.retrySocket fd).Inv := by
  apply Inv.of_status
  unfold retrySocket
  dsimp only
  split_ifs <;> simp

theorem Inv.connectTo (h : c.Inv) (errno : Errno) : (c.connectTo errno).Inv := by
  have hnew : c.newSocket.Inv := h
  unfold Connector.connectTo
  split
  · apply Inv.of_status
    unfold connecting Connector.assert
    split_ifs <;> simp
  · split_ifs
    · exact retrySocket_inv _ _
    · exact hnew
  · exact Inv.closeSocket (c := { c.newSocket with socketHanded := true }) hnew _

theorem Inv.startInLoop (h : c.Inv) (errno : Errno) : (c.startInLoop errno).Inv := by
  have hassert := h.assert (c.status = .Disconnected)
  unfold Connector.startInLoop
  dsimp only
  split_ifs
  · exact hassert.connectTo errno
  · exact hassert

theorem Inv.errorCallback {rs : List Reaction} (h : c.Inv) : (errorCallback rs c).1.Inv := by
  induction rs generalizing c with
  | nil => exact h
  | cons r rs ih =>
    cases r with
    | nothing => exact h
    | start errno =>
      have hstart := Inv.startInLoop (c := { c with connect := true }) h errno
      unfold Connector.errorCallback
      dsimp only
      split_ifs
      · exact ih hstart
      · exact hstart

theorem Inv.startWith (h : c.Inv) (errno : Errno) (rs : List Reaction) :
    (c.startWith errno rs).Inv := by
  have hstart := h.startInLoop errno
  unfold Connector.startWith
  dsimp only
  split_ifs
  · exact hstart.errorCallback
  · exact hstart

theorem Inv.handleError (h : c.Inv) (rs : List Reaction) : (c.handleError rs).1.Inv := by
  unfold Connector.handleError
  dsimp only
  split_ifs
  · exact (retrySocket_inv _ _).errorCallback
  · exact Inv.errorCallback ((Inv.of_none rfl).closeSocket _)
  · exact h

theorem Inv.handleWrite (h : c.Inv) (report : SocketReport) (rs : List Reaction) :
    (c.handleWrite report rs).1.Inv := by
  unfold Connector.handleWrite
  dsimp only
  split_ifs
  · exact (retrySocket_inv _ _).errorCallback
  · exact Inv.errorCallback ((Inv.of_none rfl).closeSocket _)
  · cases c.channelPtr with
    | none => exact Inv.of_none rfl
    | some fd => exact Inv.of_none rfl
  · exact (Inv.of_none rfl).closeSocket _
  · exact Inv.assert (c := { c with socketHanded := true }) h _

theorem Inv.callback (h : c.Inv) (report : SocketReport) (rs : List Reaction)
    (cb : Channel.Callback) : (callback report c rs cb).1.Inv := by
  cases cb with
  | read => exact h
  | close | error =>
    unfold Connector.callback
    split_ifs
    · exact h
    · exact h.handleError rs
  | write =>
    unfold Connector.callback
    split_ifs
    · exact h
    · exact h.handleWrite report rs

theorem Inv.callbacks (h : c.Inv) (report : SocketReport) (cbs : List Channel.Callback)
    (rs : List Reaction) : (callbacks report cbs c rs).1.Inv := by
  induction cbs generalizing c rs with
  | nil => exact h
  | cons cb cbs ih => exact ih (h.callback report rs cb) _

theorem Inv.step (h : c.Inv) (op : Op) : (c.step op).Inv := by
  unfold Connector.step
  split
  · exact h
  cases op with
  | start errno rs => exact Inv.startWith (c := { c with connect := true }) h errno rs
  | retryTimer errno rs => exact h.startWith errno rs
  | stop => exact Inv.of_none rfl
  | stopElsewhere => exact Inv.of_status (by simp)
  | removeChannel => exact Inv.of_none rfl
  | event revents report rs =>
    simp only
    split
    · exact h.callbacks report _ rs
    · exact h

/-- **One event, one attempt**: the callbacks of an event leave the attempts that follow
alone along a run exactly when no first callback leaves one behind for a second. -/
theorem isolated_iff (retry : Bool) (ops : List Op) :
    Runs.Along Connector.step Isolated (new retry) ops ↔
      Runs.Along Connector.step (fun c op => c.overtakes op = false) (new retry) ops :=
  Runs.along_iff_along (I := Inv) (fun _ op h _ => h.step op) (fun _ op h => isolated_iff_step h op)
    (Inv.of_none rfl) ops

/-- A refused connection, and `connect()` called from the connection-error callback: the error
callback closes the socket of the new attempt. -/
theorem not_isolated_reconnect :
    ¬ Runs.Along Connector.step Isolated (new false)
      [.start .EINPROGRESS [],
        .event (Channel.POLLHUP ||| Channel.POLLERR ||| Channel.POLLOUT) ⟨true, false⟩
          [.start .EINPROGRESS, .nothing]] := by
  decide +kernel

end Connector

end XiaoNet
