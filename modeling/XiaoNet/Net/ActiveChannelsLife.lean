import XiaoNet.Net.ActiveChannels

/-!
# Channels outlive the batch

A queued function holds every channel that loses its owner during a batch, and no function
runs before the batch has ended. The acceptor is the exception: `TcpServer::stop` destroys it
at once.

- `Outlives`: no channel still to be dispatched or on the stack has been destroyed.
- `Spares`: no callback calls `stop` of a server whose acceptor is such a channel.
- `Kept`: the channel is held by its owner or by the function that is queued when the owner
  lets it go. `Grows` is a step that keeps what is kept.
- `outlives_iff_spares`: `Outlives` holds along a run exactly when all its steps are `Spares`.
-/

namespace XiaoNet

universe u v

namespace ActiveChannels

variable {σ : Type u} {κ : Type v}

/-- Still to be dispatched, or on the stack. -/
def Dispatched (s : ActiveChannels σ κ) (ch : ChannelId σ κ) : Prop :=
  ch ∈ s.activeChannels ∨ s.currentActiveChannel = some ch

/-- Held by its owner, or by a queued function. -/
def Kept (s : ActiveChannels σ κ) : ChannelId σ κ → Prop
  | .wakeup | .timerfd => True
  | .accept i => s.acceptor i = true
  | .io c => (∃ conn : Conn σ, s.conns[c]? = some conn ∧ conn.held = true) ∨ .connectDestroyed c ∈ s.funcs
  | .connect j k => s.channelPtr j = some k ∨ .channel j k ∈ s.funcs

/-- The connections of the loop. -/
structure ConnInv (s : ActiveChannels σ κ) : Prop where
  registered : ∀ (c : Nat) (conn : Conn σ), s.conns[c]? = some conn → conn.registered = true → s.Kept (.io c)
  connecting : ∀ (c : Nat) (conn : Conn σ), s.conns[c]? = some conn → conn.status = .connecting → conn.held = true
  closing : ∀ c ∈ s.closing, ∃ conn : Conn σ, s.conns[c]? = some conn ∧ conn.status ≠ .connecting

/-- Functions run between batches, and a batch has only channels that are kept. -/
structure Inv (s : ActiveChannels σ κ) : Prop where
  conn : s.ConnInv
  dispatched : ∀ ch, s.Dispatched ch → s.Kept ch
  idle : s.phase ≠ .handling → ∀ ch, ¬ s.Dispatched ch

/-- What is kept in `s` is kept in `s'`. -/
structure Grows (s s' : ActiveChannels σ κ) : Prop where
  phase_eq : s'.phase = s.phase
  acceptor_eq : s'.acceptor = s.acceptor
  dispatched : ∀ ch, s'.Dispatched ch ↔ s.Dispatched ch
  funcs : ∀ f ∈ s.funcs, f ∈ s'.funcs
  held : ∀ (c : Nat) (conn : Conn σ), s.conns[c]? = some conn → conn.held = true → s'.Kept (.io c)
  channel : ∀ j k, s.channelPtr j = some k → s'.Kept (.connect j k)
  conn : s.ConnInv → s'.ConnInv

variable {s s' : ActiveChannels σ κ}

theorem Grows.refl (s : ActiveChannels σ κ) : Grows s s :=
  ⟨rfl, rfl, fun _ => Iff.rfl, fun _ h => h, fun _ conn hc hh => .inl ⟨conn, hc, hh⟩,
    fun _ _ h => .inl h, fun h => h⟩

/-- What is not looked at. -/
theorem grows_of_eq (hphase : s'.phase = s.phase) (hacc : s'.acceptor = s.acceptor)
    (hbatch : (s'.activeChannels, s'.currentActiveChannel)
      = (s.activeChannels, s.currentActiveChannel)) (hfuncs : s'.funcs = s.funcs)
    (hconns : s'.conns = s.conns) (hptr : s'.channelPtr = s.channelPtr)
    (hclosing : s'.closing = s.closing) : Grows s s' := by
  obtain ⟨hactive, hcurrent⟩ := Prod.mk.inj hbatch
  refine ⟨hphase, hacc, fun ch => ?_, fun f h => ?_, fun c conn hc hh => .inl ⟨conn, ?_, hh⟩,
    fun j k h => .inl ?_, fun h => ⟨fun c conn hc hr => ?_, ?_, ?_⟩⟩
  · rw [Dispatched, hactive, hcurrent]
    rfl
  · rw [hfuncs]
    exact h
  · rw [hconns]
    exact hc
  · rw [hptr]
    exact h
  · rw [Kept, hconns, hfuncs]
    rw [hconns] at hc
    exact h.registered c conn hc hr
  · rw [hconns]
    exact h.connecting
  · rw [hconns, hclosing]
    exact h.closing

theorem Grows.trans {s₁ s₂ s₃ : ActiveChannels σ κ} (h₁ : Grows s₁ s₂) (h₂ : Grows s₂ s₃) :
    Grows s₁ s₃ where
  phase_eq := h₂.phase_eq.trans h₁.phase_eq
  acceptor_eq := h₂.acceptor_eq.trans h₁.acceptor_eq
  dispatched := fun ch => (h₂.dispatched ch).trans (h₁.dispatched ch)
  funcs := fun f h => h₂.funcs f (h₁.funcs f h)
  held := fun c conn hc hh => by
    rcases h₁.held c conn hc hh with ⟨conn', hc', hh'⟩ | hf
    · exact h₂.held c conn' hc' hh'
    · exact .inr (h₂.funcs _ hf)
  channel := fun j k h => by
    rcases h₁.channel j k h with hp | hf
    · exact h₂.channel j k hp
    · exact .inr (h₂.funcs _ hf)
  conn := fun h => h₂.conn (h₁.conn h)

theorem Inv.of_grows (h : s.Inv) (hg : Grows s s') : s'.Inv where
  conn := hg.conn h.conn
  dispatched := fun ch hd => by
    have hkept := h.dispatched ch ((hg.dispatched ch).mp hd)
    cases ch with
    | wakeup => trivial
    | timerfd => trivial
    | accept i => exact (congrFun hg.acceptor_eq i).trans hkept
    | io c =>
      rcases hkept with ⟨conn, hc, hh⟩ | hf
      · exact hg.held c conn hc hh
      · exact .inr (hg.funcs _ hf)
    | connect j k =>
      rcases hkept with hp | hf
      · exact hg.channel j k hp
      · exact .inr (hg.funcs _ hf)
  idle := fun hphase ch hd => h.idle (hg.phase_eq ▸ hphase) ch ((hg.dispatched ch).mp hd)

/-! ## Connections -/

theorem conns_setConn {c : Nat} {conn : Conn σ} (hc : s.conns[c]? = some conn) (conn' : Conn σ)
    (d : Nat) :
    (s.setConn c conn').conns[d]? = if d = c then some conn' else s.conns[d]? := by
  have hlt : c < s.conns.length := (List.getElem?_eq_some_iff.mp hc).1
  show (s.conns.set c conn')[d]? = _
  rw [List.getElem?_set]
  by_cases hd : d = c
  · subst hd
    simp [hlt]
  · rw [if_neg (Ne.symm hd), if_neg hd]

/-- The holders of a connection stay. -/
theorem grows_setConn {c : Nat} {conn conn' : Conn σ} (hc : s.conns[c]? = some conn)
    (hheld : conn'.held = conn.held)
    (hreg : conn'.registered = true → conn.registered = true ∨ conn.held = true)
    (hstatus : conn'.status = .connecting → conn.status = .connecting) :
    Grows s (s.setConn c conn') := by
  -- the connection that is set is held as it was, the others are not touched
  have hheld' : ∀ d conn₁, s.conns[d]? = some conn₁ → conn₁.held = true →
      (s.setConn c conn').Kept (.io d) := by
    intro d conn₁ hd hh
    by_cases hdc : d = c
    · subst hdc
      rw [hc, Option.some.injEq] at hd
      subst hd
      refine .inl ⟨conn', ?_, hheld.trans hh⟩
      rw [conns_setConn hc, if_pos rfl]
    · refine .inl ⟨conn₁, ?_, hh⟩
      rw [conns_setConn hc, if_neg hdc]
      exact hd
  -- so what kept a channel alive still does
  have hkept : ∀ d, s.Kept (.io d) → (s.setConn c conn').Kept (.io d) := by
    rintro d (⟨conn₁, hd, hh⟩ | hf)
    · exact hheld' d conn₁ hd hh
    · exact .inr hf
  refine ⟨rfl, rfl, fun _ => Iff.rfl, fun _ h => h, hheld', fun _ _ h => .inl h, fun h => ⟨?_, ?_, ?_⟩⟩
  · intro d conn₁ hd hr
    rw [conns_setConn hc] at hd
    split at hd
    · rename_i hdc
      subst hdc
      cases hd
      rcases hreg hr with hr | hh
      · exact hkept _ (h.registered _ conn hc hr)
      · exact hheld' _ conn hc hh
    · exact hkept d (h.registered d conn₁ hd hr)
  · intro d conn₁ hd hs
    rw [conns_setConn hc] at hd
    split at hd
    · cases hd
      rw [hheld]
      exact h.connecting c conn hc (hstatus hs)
    · exact h.connecting d conn₁ hd hs
  · intro d hd
    obtain ⟨conn₁, hd₁, hs⟩ := h.closing d hd
    by_cases hdc : d = c
    · subst hdc
      rw [hc, Option.some.injEq] at hd₁
      subst hd₁
      refine ⟨conn', ?_, fun hs' => hs (hstatus hs')⟩
      rw [conns_setConn hc, if_pos rfl]
    · refine ⟨conn₁, ?_, hs⟩
      rw [conns_setConn hc, if_neg hdc]
      exact hd₁

theorem Kept.queue {ch : ChannelId σ κ} (h : s.Kept ch) (f : Closure σ κ) :
    (s.queueInLoop f).Kept ch := by
  cases ch with
  | wakeup => trivial
  | timerfd => trivial
  | accept i => exact h
  | io c => exact h.imp_right (List.mem_append_left _)
  | connect j k => exact h.imp_right (List.mem_append_left _)

theorem grows_queueInLoop (s : ActiveChannels σ κ) (f : Closure σ κ) :
    Grows s (s.queueInLoop f) where
  phase_eq := rfl
  acceptor_eq := rfl
  dispatched := fun _ => Iff.rfl
  funcs := fun _ h => List.mem_append_left _ h
  held := fun _ conn hc hh => .inl ⟨conn, hc, hh⟩
  channel := fun _ _ h => .inl h
  conn := fun h => ⟨fun c conn hc hr => (h.registered c conn hc hr).queue f, h.connecting, h.closing⟩

/-- The owner lets the connection go: the closure of `connectDestroyed` has it. -/
theorem grows_removeConnection {c : Nat}
    (hstatus : ∀ conn, s.conns[c]? = some conn → conn.status ≠ .connecting) :
    Grows s (s.removeConnection c) := by
  unfold removeConnection
  cases hc : s.conns[c]? with
  | none => exact .refl s
  | some conn =>
    dsimp only
    split
    · have hconns := conns_setConn hc { conn with held := false }
      -- the connection is given up, and the closure that is queued holds it instead
      have hkept : ∀ d, s.Kept (.io d) →
          ((s.setConn c { conn with held := false }).queueInLoop (.connectDestroyed c)).Kept
            (.io d) := by
        intro d hd
        by_cases hdc : d = c
        · subst hdc
          exact .inr (List.mem_append_right _ List.mem_cons_self)
        · rcases hd with ⟨conn₁, hd, hh⟩ | hf
          · refine .inl ⟨conn₁, ?_, hh⟩
            show (s.setConn c _).conns[d]? = _
            rw [hconns, if_neg hdc]
            exact hd
          · exact .inr (List.mem_append_left _ hf)
      refine ⟨rfl, rfl, fun _ => Iff.rfl, fun _ h => List.mem_append_left _ h,
        fun d conn₁ hd hh => hkept d (.inl ⟨conn₁, hd, hh⟩), fun _ _ h => .inl h,
        fun h => ⟨?_, ?_, ?_⟩⟩
      · intro d conn₁ hd hr
        refine hkept d ?_
        change (s.setConn c _).conns[d]? = _ at hd
        rw [hconns] at hd
        split at hd
        · rename_i hdc
          subst hdc
          cases hd
          exact h.registered _ conn hc hr
        · exact h.registered d conn₁ hd hr
      · -- none that is still connecting is removed
        intro d conn₁ hd hs
        change (s.setConn c _).conns[d]? = _ at hd
        rw [hconns] at hd
        split at hd
        · cases hd
          exact absurd hs (hstatus conn hc)
        · exact h.connecting d conn₁ hd hs
      · intro d hd
        obtain ⟨conn₁, hd₁, hs⟩ := h.closing d hd
        by_cases hdc : d = c
        · subst hdc
          refine ⟨_, (hconns d).trans (if_pos rfl), hstatus conn hc⟩
        · exact ⟨conn₁, ((hconns d).trans (if_neg hdc)).trans hd₁, hs⟩
    · exact grows_of_eq rfl rfl rfl rfl rfl rfl rfl

/-- A connection that has been established waits for the loop of its server. -/
theorem grows_closing {c : Nat} {conn : Conn σ} (hc : s.conns[c]? = some conn)
    (hstatus : conn.status ≠ .connecting) :
    Grows s { s with closing := s.closing ++ [c] } where
  phase_eq := rfl
  acceptor_eq := rfl
  dispatched := fun _ => Iff.rfl
  funcs := fun _ h => h
  held := fun _ conn hc hh => .inl ⟨conn, hc, hh⟩
  channel := fun _ _ h => .inl h
  conn := fun h => by
    refine ⟨h.registered, h.connecting, fun d hd => ?_⟩
    rcases List.mem_append.mp hd with hd | hd
    · exact h.closing d hd
    · rw [List.mem_singleton.mp hd]
      exact ⟨conn, hc, hstatus⟩

theorem grows_connectionClosed {c : Nat} {conn : Conn σ} (hc : s.conns[c]? = some conn)
    (hstatus : conn.status ≠ .connecting) (owner : ConnOwner σ) :
    Grows s (s.connectionClosed c owner) := by
  have hremove : Grows s (s.removeConnection c) := grows_removeConnection fun conn' hc' => by
    rw [hc, Option.some.injEq] at hc'
    rw [← hc']
    exact hstatus
  cases owner with
  | server i => exact hremove
  | client => exact hremove
  | elsewhere => exact grows_closing hc hstatus

theorem grows_handleClose (s : ActiveChannels σ κ) (c : Nat) : Grows s (s.handleClose c) := by
  unfold handleClose
  cases hc : s.conns[c]? with
  | none => exact .refl s
  | some conn =>
    dsimp only
    split
    · have hset : Grows s (s.setConn c { conn with status := .disconnected }) :=
        grows_setConn hc rfl Or.inl (fun h => by cases h)
      have hself := (conns_setConn hc { conn with status := .disconnected } c).trans (if_pos rfl)
      exact hset.trans (grows_connectionClosed hself (by simp) conn.owner)
    · exact .refl s

theorem grows_forceClose (s : ActiveChannels σ κ) (c : Nat) : Grows s (s.forceClose c) := by
  unfold forceClose
  split
  · split
    · exact grows_handleClose s c
    · exact .refl s
  · exact .refl s

theorem grows_foldl (cs : List Nat) (s : ActiveChannels σ κ) :
    Grows s (cs.foldl forceClose s) := by
  induction cs generalizing s with
  | nil => exact .refl s
  | cons c cs ih => exact (grows_forceClose s c).trans (ih _)

theorem grows_setUsers (s : ActiveChannels σ κ) (c : Nat) (users : Nat → Nat) :
    Grows s (s.setUsers c users) := by
  unfold setUsers
  split
  · rename_i hc
    exact grows_setConn hc rfl Or.inl fun h => h
  · exact .refl s

theorem grows_newConnection (s : ActiveChannels σ κ) (owner : ConnOwner σ) :
    Grows s (s.newConnection owner) := by
  have hpush : ∀ status registered, (status = .connecting → registered = false) →
      Grows s { s with conns := s.conns ++ [⟨owner, status, true, registered, 0⟩] } := by
    intro status registered hstatus
    -- the old connections are found where they were
    have hold : ∀ (c : Nat) (conn : Conn σ), s.conns[c]? = some conn →
        (s.conns ++ [⟨owner, status, true, registered, 0⟩])[c]? = some conn := by
      intro c conn hc
      rw [List.getElem?_append_left (List.getElem?_eq_some_iff.mp hc).1]
      exact hc
    -- and there is one more
    have hcases : ∀ (c : Nat) (conn : Conn σ),
        (s.conns ++ [⟨owner, status, true, registered, 0⟩])[c]? = some conn →
        s.conns[c]? = some conn ∨ conn = ⟨owner, status, true, registered, 0⟩ := by
      intro c conn hc
      rw [List.getElem?_append] at hc
      split at hc
      · exact .inl hc
      · exact .inr (List.mem_singleton.mp (List.mem_of_getElem? hc))
    refine ⟨rfl, rfl, fun _ => Iff.rfl, fun _ h => h,
      fun c conn hc hh => .inl ⟨conn, hold c conn hc, hh⟩, fun _ _ h => .inl h,
      fun h => ⟨fun c conn hc hr => ?_, fun c conn hc hs => ?_, fun c hc => ?_⟩⟩
    · rcases hcases c conn hc with hc' | rfl
      · rcases h.registered c conn hc' hr with ⟨conn', hc', hh⟩ | hf
        · exact .inl ⟨conn', hold c conn' hc', hh⟩
        · exact .inr hf
      · exact .inl ⟨_, hc, rfl⟩
    · rcases hcases c conn hc with hc' | rfl
      · exact h.connecting c conn hc' hs
      · rfl
    · obtain ⟨conn, hc', hs⟩ := h.closing c hc
      exact ⟨conn, hold c conn hc', hs⟩
  cases owner with
  | server i => exact hpush _ _ (by simp)
  | client => exact hpush _ _ (by simp)
  | elsewhere => exact (hpush _ _ fun _ => rfl).trans (grows_queueInLoop _ _)

/-! ## Functions and connectors -/

/-- The loop has taken the function out of the queue. -/
theorem Inv.dequeue (h : s.Inv) (hphase : s.phase = .functions) {f : Closure σ κ}
    {funcs : List (Closure σ κ)} (hfuncs : s.funcs = f :: funcs)
    (hf : ∀ c, f ≠ .connectDestroyed c) :
    Inv { s with funcs := funcs, running := some f } where
  conn := by
    refine ⟨fun c conn hc hr => ?_, h.conn.connecting, h.conn.closing⟩
    refine (h.conn.registered c conn hc hr).imp_right fun hmem => ?_
    rw [hfuncs] at hmem
    exact (List.mem_cons.mp hmem).resolve_left (hf c).symm
  dispatched := fun ch hd => absurd hd (h.idle (by rw [hphase]; simp) ch)
  idle := h.idle

/-- `connectDestroyed` takes the channel out of the poller. -/
theorem Inv.connectDestroyed (h : s.Inv) (hphase : s.phase = .functions) {c : Nat}
    {funcs : List (Closure σ κ)} (hfuncs : s.funcs = .connectDestroyed c :: funcs)
    {conns : List (Conn σ)}
    (hother : ∀ d, d ≠ c → conns[d]? = s.conns[d]?)
    (hself : ∀ conn, conns[c]? = some conn → conn.registered = false ∧
      ∃ conn', s.conns[c]? = some conn' ∧ conn.status = conn'.status ∧ conn.held = conn'.held)
    (hsome : ∀ conn, s.conns[c]? = some conn → ∃ conn', conns[c]? = some conn' ∧
      conn'.status = conn.status) :
    Inv { s with funcs := funcs, running := some (.connectDestroyed c), conns := conns } where
  conn := by
    refine ⟨fun d conn hd hr => ?_, fun d conn hd hs => ?_, fun d hd => ?_⟩
    · -- the channel of this connection is not registered any more, the others stay kept
      by_cases hdc : d = c
      · subst hdc
        rw [(hself conn hd).1] at hr
        cases hr
      · change conns[d]? = _ at hd
        rw [hother d hdc] at hd
        rcases h.conn.registered d conn hd hr with ⟨conn', hd', hh⟩ | hmem
        · exact .inl ⟨conn', (hother d hdc).trans hd', hh⟩
        · rw [hfuncs] at hmem
          exact .inr ((List.mem_cons.mp hmem).resolve_left (by simpa using hdc))
    · by_cases hdc : d = c
      · subst hdc
        obtain ⟨-, conn', hc', hs', hh'⟩ := hself conn hd
        rw [hh']
        exact h.conn.connecting d conn' hc' (hs' ▸ hs)
      · exact h.conn.connecting d conn ((hother d hdc).symm.trans hd) hs
    · obtain ⟨conn, hd', hs⟩ := h.conn.closing d hd
      by_cases hdc : d = c
      · subst hdc
        obtain ⟨conn', hc', hs'⟩ := hsome conn hd'
        exact ⟨conn', hc', hs' ▸ hs⟩
      · exact ⟨conn, (hother d hdc).trans hd', hs⟩
  dispatched := fun ch hd => absurd hd (h.idle (by rw [hphase]; simp) ch)
  idle := h.idle

section

variable [DecidableEq σ]

/-- `TcpServer::stop` first destroys the acceptor. -/
theorem Inv.stop (h : s.Inv) {i : σ} (hspared : ¬ s.Dispatched (.accept i)) : (s.stop i).Inv := by
  have hreset : Inv { s with acceptor := Function.update s.acceptor i false } := by
    refine ⟨⟨h.conn.registered, h.conn.connecting, h.conn.closing⟩, fun ch hd => ?_, h.idle⟩
    have hkept := h.dispatched ch hd
    cases ch with
    | accept i' =>
      have hne : i' ≠ i := by
        rintro rfl
        exact hspared hd
      exact (Function.update_of_ne hne _ _).trans hkept
    | _ => exact hkept
  exact hreset.of_grows (grows_foldl _ _)

theorem acceptor_stop (s : ActiveChannels σ κ) (i : σ) : (s.stop i).acceptor i = false :=
  (congrFun (grows_foldl _ _).acceptor_eq i).trans (Function.update_self i false s.acceptor)

end

variable [DecidableEq κ]

/-- The channel is held by the function that is queued. -/
theorem grows_removeAndResetChannel (s : ActiveChannels σ κ) (j : κ) :
    Grows s (s.removeAndResetChannel j) := by
  unfold removeAndResetChannel
  cases hptr : s.channelPtr j with
  | none => exact .refl s
  | some k =>
    refine (grows_queueInLoop s (.channel j k)).trans ?_
    refine ⟨rfl, rfl, fun _ => Iff.rfl, fun _ h => h, fun _ conn hc hh => .inl ⟨conn, hc, hh⟩,
      fun j' k' h => ?_, fun h => ⟨h.registered, h.connecting, h.closing⟩⟩
    by_cases hj : j' = j
    · subst hj
      have hk : k' = k := by
        have heq : s.channelPtr j' = some k' := h
        rw [hptr] at heq
        exact (Option.some.inj heq).symm
      rw [hk]
      exact .inr (List.mem_append_right _ List.mem_cons_self)
    · exact .inl ((Function.update_of_ne hj _ _).trans h)

theorem grows_connecting (s : ActiveChannels σ κ) (j : κ) : Grows s (s.connecting j) := by
  unfold connecting
  split
  · rename_i hnone
    refine ⟨rfl, rfl, fun _ => Iff.rfl, fun _ h => h, fun _ conn hc hh => .inl ⟨conn, hc, hh⟩,
      fun j' k' h => ?_, fun h => ⟨h.registered, h.connecting, h.closing⟩⟩
    have hj : j' ≠ j := by
      rintro rfl
      rw [hnone] at h
      cases h
    exact .inl ((Function.update_of_ne hj _ _).trans h)
  · exact grows_of_eq rfl rfl rfl rfl rfl rfl rfl

/-! ## Steps -/

variable [DecidableEq σ]

theorem grows_other (h : s.ConnInv) (o : Other σ κ) : Grows s (s.other o) := by
  cases o with
  | newConnection => exact grows_newConnection s .elsewhere
  | handleCloseInLoop =>
    rw [other]
    split
    · rename_i c closing hclosing
      -- taking a connection off the closing list touches nothing else
      have hpop : Grows s { s with closing := closing } :=
        ⟨rfl, rfl, fun _ => Iff.rfl, fun _ h => h, fun _ conn hc hh => .inl ⟨conn, hc, hh⟩,
          fun _ _ h => .inl h, fun h => ⟨h.registered, h.connecting, fun d hd =>
            h.closing d (by rw [hclosing]; exact List.mem_cons_of_mem c hd)⟩⟩
      refine hpop.trans (grows_removeConnection fun conn hc => ?_)
      obtain ⟨conn', hc', hs⟩ := h.closing c (by rw [hclosing]; exact List.mem_cons_self)
      rw [show s.conns[c]? = some conn from hc, Option.some.injEq] at hc'
      rw [hc']
      exact hs
    · exact .refl s
  | forceClose c =>
    rw [other]
    split
    · exact grows_queueInLoop s _
    · exact .refl s
  | stopConnector j => exact grows_queueInLoop s _
  | stopServer i => exact grows_queueInLoop s _
  | release c => exact grows_setUsers s c (· - 1)

/-- The next step is not a call of `stop` of a server whose acceptor has its channel in the
rest of the batch or on the stack. -/
def Spares (s : ActiveChannels σ κ) : Act σ κ → Prop
  | .call (.stop i) =>
    s.failed = false → (s.currentActiveChannel.isSome || s.running.isSome) = true →
      ¬ s.Dispatched (.accept i)
  | _ => True

theorem Inv.call (h : s.Inv) (c : Call σ κ) (hspared : ∀ i, c = .stop i → ¬ s.Dispatched (.accept i)) :
    (s.call c).Inv := by
  cases c with
  | listen i => exact h.of_grows (grows_of_eq rfl rfl rfl rfl rfl rfl rfl)
  | newConnection owner =>
    cases owner with
    | server i => exact h.of_grows (grows_newConnection s (.server i))
    | client => exact h.of_grows (grows_newConnection s .client)
    | elsewhere => exact h
  | handleClose c => exact h.of_grows (grows_handleClose s c)
  | connecting j => exact h.of_grows (grows_connecting s j)
  | removeAndResetChannel j => exact h.of_grows (grows_removeAndResetChannel s j)
  | stop i => exact h.stop (hspared i rfl)
  | keep c =>
    rw [ActiveChannels.call]
    split
    · exact h.of_grows (grows_setUsers s c _)
    · exact h
  | release c => exact h.of_grows (grows_setUsers s c (· - 1))

theorem Inv.takeFunc (h : s.Inv) (hphase : s.phase = .functions) : s.takeFunc.Inv := by
  have hidle := h.idle (by rw [hphase]; simp)
  unfold ActiveChannels.takeFunc
  cases hfuncs : s.funcs with
  | nil => exact h
  | cons f funcs =>
    dsimp only
    cases f with
    | connectEstablished c =>
      have hpop := h.dequeue hphase hfuncs (by simp)
      rw [run]
      split
      · rename_i conn hc
        split
        · rename_i hs
          refine hpop.of_grows (grows_setConn hc rfl (fun _ => .inr ?_) (fun hs' => by cases hs'))
          exact hpop.conn.connecting c conn hc hs
        · exact hpop.of_grows (grows_of_eq rfl rfl rfl rfl rfl rfl rfl)
      · exact hpop
    | connectDestroyed c =>
      -- the closure held the connection, which is taken out of the poller before it goes
      rw [run]
      cases hc : s.conns[c]? with
      | none =>
        refine h.connectDestroyed hphase hfuncs (fun _ _ => rfl) (fun conn hc' => ?_)
          fun conn hc' => ?_
        · rw [hc] at hc'
          cases hc'
        · rw [hc] at hc'
          cases hc'
      | some conn =>
        have hset := conns_setConn hc { conn with registered := false }
        refine h.connectDestroyed hphase hfuncs (fun d hdc => (hset d).trans (if_neg hdc))
          (fun conn₁ hc₁ => ?_) fun conn₁ hc₁ => ?_
        · rw [show ((s.conns.set c { conn with registered := false })[c]?) = _ from
            (hset c).trans (if_pos rfl), Option.some.injEq] at hc₁
          subst hc₁
          exact ⟨rfl, conn, hc, rfl, rfl⟩
        · rw [hc, Option.some.injEq] at hc₁
          subst hc₁
          exact ⟨_, (hset c).trans (if_pos rfl), rfl⟩
    | forceClose c => exact (h.dequeue hphase hfuncs (by simp)).of_grows (grows_forceClose _ c)
    | removeChannel j =>
      exact (h.dequeue hphase hfuncs (by simp)).of_grows (grows_removeAndResetChannel _ j)
    | channel j k => exact h.dequeue hphase hfuncs (by simp)
    | stop i => exact (h.dequeue hphase hfuncs (by simp)).stop (hidle _)

omit [DecidableEq κ] [DecidableEq σ] in
/-- The poller returns channels that it knows. -/
theorem Inv.poll (h : s.Inv) (hphase : s.phase = .polling) {active : List (ChannelId σ κ)}
    (hactive : ∀ ch ∈ active, s.registered ch = true) :
    Inv { s with phase := .handling, activeChannels := active } where
  conn := ⟨h.conn.registered, h.conn.connecting, h.conn.closing⟩
  dispatched := fun ch hd => by
    rcases hd with hmem | hcurrent
    · have hreg := hactive ch hmem
      cases ch with
      | wakeup => trivial
      | timerfd => trivial
      | accept i => exact (Bool.and_eq_true_iff.mp hreg).1
      | io c =>
        rw [ActiveChannels.registered] at hreg
        cases hc : s.conns[c]? with
        | none =>
          rw [hc] at hreg
          cases hreg
        | some conn =>
          rw [hc] at hreg
          exact h.conn.registered c conn hc hreg
      | connect j k => exact .inl (beq_iff_eq.mp hreg)
    · exact absurd (.inr hcurrent) (h.idle (by rw [hphase]; simp) ch)
  idle := fun hp => absurd rfl hp

theorem Inv.step (h : s.Inv) (a : Act σ κ) (hspares : s.Spares a) : (s.step a).Inv := by
  unfold ActiveChannels.step
  split
  · exact h
  rename_i hrunning
  cases a with
  | poll active =>
    dsimp only
    split
    · rename_i hp
      exact h.poll hp.1 hp.2.2
    · exact h
  | handleEvent =>
    dsimp only
    split
    · rename_i ch rest hcurrent hactive
      -- the head of the list becomes the current channel
      have hsub : ∀ ch', (ch' ∈ rest ∨ some ch = some ch') → s.Dispatched ch' := by
        rintro ch' (hmem | heq)
        · exact .inl (by rw [hactive]; exact List.mem_cons_of_mem ch hmem)
        · rw [← Option.some.inj heq]
          exact .inl (by rw [hactive]; exact List.mem_cons_self)
      exact ⟨⟨h.conn.registered, h.conn.connecting, h.conn.closing⟩,
        fun ch' hd => h.dispatched ch' (hsub ch' hd),
        fun hp ch' hd => h.idle hp ch' (hsub ch' hd)⟩
    · exact h
  | handled =>
    have hsub : ∀ ch, (ch ∈ s.activeChannels ∨ none = some ch) → s.Dispatched ch :=
      fun ch hd => hd.elim .inl fun hn => by cases hn
    exact ⟨⟨h.conn.registered, h.conn.connecting, h.conn.closing⟩,
      fun ch hd => h.dispatched ch (hsub ch hd), fun hp ch hd => h.idle hp ch (hsub ch hd)⟩
  | endBatch =>
    dsimp only
    split
    · rename_i hend
      have hnone : ∀ ch, ¬ s.Dispatched ch := by
        intro ch hd
        rw [Dispatched, hend.2.1, hend.2.2] at hd
        rcases hd with hd | hd <;> cases hd
      exact ⟨⟨h.conn.registered, h.conn.connecting, h.conn.closing⟩,
        fun ch hd => absurd hd (hnone ch), fun _ => hnone⟩
    · exact h
  | takeFunc =>
    dsimp only
    split
    · rename_i hp
      exact h.takeFunc hp.1
    · exact h
  | funcReturns => exact h.of_grows (grows_of_eq rfl rfl rfl rfl rfl rfl rfl)
  | endFuncs =>
    dsimp only
    split
    · rename_i hp
      have hidle := h.idle (by rw [hp.1]; simp)
      exact ⟨⟨h.conn.registered, h.conn.connecting, h.conn.closing⟩, h.dispatched, fun _ => hidle⟩
    · exact h
  | call c =>
    dsimp only
    split
    · rename_i hcan
      refine h.call c fun i hi => ?_
      subst hi
      exact hspares (Bool.eq_false_iff.mpr hrunning) hcan
    · exact h
  | other o => exact h.of_grows (grows_other h.conn o)

/-! ## The batch -/

/-- No channel still to be dispatched or on the stack has been destroyed. -/
def Outlives (s : ActiveChannels σ κ) : Prop := ∀ ch, s.Dispatched ch → s.alive ch = true

theorem Kept.alive {ch : ChannelId σ κ} (h : s.Kept ch) : s.alive ch = true := by
  cases ch with
  | wakeup => rfl
  | timerfd => rfl
  | accept i => exact h
  | io c =>
    rcases h with ⟨conn, hc, hh⟩ | hf
    · simp [ActiveChannels.alive, connAlive, hc, hh]
    · have hany : s.funcs.any (·.conn == some c) = true :=
        List.any_eq_true.mpr ⟨_, hf, by simp [Closure.conn]⟩
      simp [ActiveChannels.alive, connAlive, hany]
  | connect j k =>
    rcases h with hp | hf
    · simp [ActiveChannels.alive, connectAlive, hp]
    · simp [ActiveChannels.alive, connectAlive, hf]

theorem not_outlives_step (a : Act σ κ) (hspares : ¬ s.Spares a) : ¬ (s.step a).Outlives := by
  cases a with
  | call c =>
    cases c with
    | stop i =>
      simp only [Spares, Classical.not_imp, not_not] at hspares
      obtain ⟨hrunning, hcan, hd⟩ := hspares
      intro ho
      rw [ActiveChannels.step, hrunning] at ho
      simp only [Bool.false_eq_true, if_false, hcan, if_true] at ho
      have hdead := ho (.accept i) (((grows_foldl _ _).dispatched _).mpr hd)
      rw [show (s.call (.stop i)).alive (.accept i) = (s.stop i).acceptor i from rfl,
        acceptor_stop] at hdead
      cases hdead
    | _ => exact absurd trivial hspares
  | _ => exact absurd trivial hspares

omit [DecidableEq κ] [DecidableEq σ] in
theorem inv_new : Inv (new : ActiveChannels σ κ) where
  conn := ⟨fun _ _ hc => by simp [new] at hc, fun _ _ hc => by simp [new] at hc,
    fun _ hc => by simp [new] at hc⟩
  dispatched := fun ch hd => by simp [Dispatched, new] at hd
  idle := fun _ ch hd => by simp [Dispatched, new] at hd

/-- **Channels outlive the batch**: over every run of the loop, its callbacks and the other
threads, no channel is destroyed while it is still to be dispatched or on the stack, exactly
when no callback stops a server whose acceptor has its channel there. -/
theorem outlives_iff_spares (as : List (Act σ κ)) :
    Runs.Always step Outlives new as ↔ Runs.Along step Spares new as :=
  Runs.always_iff_along (I := Inv) (H := fun _ _ => True)
    (fun _ h ch hd => (h.dispatched ch hd).alive) (fun _ a h _ hspares => h.step a hspares)
    (fun _ a _ _ hspares => not_outlives_step a hspares) inv_new
    (Runs.along_of_forall (fun _ _ => trivial) _ _)

/-- A connection callback stops the server while its acceptor accepts the connection. -/
theorem not_outlives_stop :
    ¬ Runs.Always step Outlives (new : ActiveChannels Unit Unit)
      [.poll [.wakeup], .handleEvent, .call (.listen ()), .handled, .endBatch, .endFuncs,
        .poll [.accept ()], .handleEvent, .call (.newConnection (.server ())),
        .call (.stop ())] := by
  intro h
  exact absurd (h.last (.accept ()) (.inr (by decide))) (by decide)

end ActiveChannels

end XiaoNet
