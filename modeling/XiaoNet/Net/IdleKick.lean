import XiaoNet.Net.IdleRefresh

/-!
# An idle connection is kicked off

The other half of the idle timeout: a connection that is left alone is closed, once, and at the
latest by tick `s + 1` after its last read or write, whatever other connections do to the wheel.

- `Watched`: the connection and its wheel with the number of ticks since the connection was used,
  and how often `~KickoffEntry` has called `forceClose`.
- `Watch`: all insertions are as old as the last use; the wheel holds the entry until `forceClose`
  has been called.
- `never_late`: the bound, along every run.
-/

namespace XiaoNet

open TimingWheel

namespace IdleTimeout

variable {c : Config}

/-- How often the destructors of these entries call `forceClose`. -/
def kicks (kickoff : Kickoff) : List Entry → Nat
  | [] => 0
  | .own i :: entries =>
    (if (kickoff.destroyEntry i).2 then 1 else 0) + kicks (destroyed kickoff (.own i)) entries
  | .other j :: entries => kicks (destroyed kickoff (.other j)) entries

structure Watched (c : Config) where
  st : IdleTimeout c
  /-- The ticks since the last read or write, and at first since kicking off was enabled. -/
  idle : Nat
  /-- The calls of `forceClose`. -/
  closes : Nat

namespace Watched

def new (c : Config) : Watched c := ⟨.new c, 0, 0⟩

def step (s : Nat) (w : Watched c) (op : Op c) : Watched c where
  st := w.st.step s op
  idle :=
    match op with
    | .enableKickingOff _ => if w.st.kickoff.entries.isEmpty then 0 else w.idle
    | .extendLife _ => 0
    | .insertOther _ _ _ => w.idle
    | .tick _ _ => w.idle + 1
  closes :=
    match op with
    | .tick _ r => w.closes + kicks w.st.kickoff (w.st.wheel.tick r.tick).2
    | _ => w.closes

/-- After `s + 1` idle ticks the connection has been closed; it is never closed twice. -/
structure NotLate (s : Nat) (w : Watched c) : Prop where
  closed : w.st.kickoff.entries ≠ [] → s + 1 ≤ w.idle → w.closes = 1
  once : w.closes ≤ 1

end Watched

/-! ## The destructors -/

variable {s : Nat} {k : Kickoff} {dead : Bool} {h : List (Event c Entry)}
  {w : TimingWheel c Entry}

theorem Shape.destroyEntry (hk : Shape s dead k) (i : Nat) :
    (k.destroyEntry i).2 = (!dead && decide (i = 0)) := by
  unfold Kickoff.destroyEntry
  dsimp only
  rw [hk.entries_eq]
  cases i with
  | zero => simp
  | succ i => simp

/-- The entry calls `forceClose` when it is destroyed, and not again. -/
theorem Shape.kicks (hk : Shape s dead k) (entries : List Entry) :
    IdleTimeout.kicks k entries
      = if dead = false ∧ Entry.own 0 ∈ entries then 1 else 0 := by
  induction entries generalizing k dead with
  | nil => simp [IdleTimeout.kicks]
  | cons e entries ih =>
    have hrest := ih (hk.destroyed e).1
    cases e with
    | other j =>
      have hne : (Entry.other j = .own 0) = False := by simp
      simpa [IdleTimeout.kicks, hne] using hrest
    | own i =>
      rw [IdleTimeout.kicks, hrest, hk.destroyEntry]
      by_cases hi : i = 0
      · subst hi
        cases dead <;> simp
      · have hne : (0 : Nat) ≠ i := fun heq => hi heq.symm
        cases dead <;> simp [hi, hne]

/-! ## The insertions -/

theorem inserted_insertOwn (hl : Logged s w h) (hc : c.ticksInterval = 1) :
    inserted (h ++ [.insertEntry s (.own 0)])
      = inserted h ++ [⟨.own 0, w.ticksCounter, s + 1, false⟩] := by
  rw [inserted_concat, made, tickDelay_eq hc, hl.wheel_eq]

/-- The connection has not inserted its entry in the last `idle` ticks. -/
def Since (idle : Nat) (w : TimingWheel c Entry) (h : List (Event c Entry)) : Prop :=
  ∀ a ∈ inserted h, a.entry = .own 0 → a.tick + idle ≤ w.ticksCounter

/-- The wheel has yet to reach the deadline of an insertion. -/
def Ahead (w : TimingWheel c Entry) (h : List (Event c Entry)) : Prop :=
  ∃ a ∈ inserted h, a.entry = .own 0 ∧ w.ticksCounter < a.tick + a.delay

/-- An event of other connections between ticks. -/
theorem mem_inserted_other {ev : Event c Entry} {a : Insertion Entry}
    (hev : ∀ a ∈ made (after h) ev, ∀ i, a.entry ≠ .own i) (hown : a.entry = .own 0) :
    a ∈ inserted (h ++ [ev]) ↔ a ∈ inserted h := by
  rw [inserted_concat]
  constructor
  · intro ha
    rcases List.mem_append.mp ha with hold | hnew
    · exact hold
    · exact absurd hown (hev a hnew 0)
  · exact fun ha => List.mem_append_left _ ha

/-! ## The invariant -/

namespace Watched

variable {wt : Watched c}

/-- Before `enableKickingOff`, while the entry is held, and after it was destroyed. -/
inductive Phase (s : Nat) (wt : Watched c) (h : List (Event c Entry)) : Prop where
  | off (hkickoff : wt.st.kickoff = .new) (hcloses : wt.closes = 0)
    (hnone : ∀ a ∈ inserted h, a.entry ≠ .own 0)
  | held (hshape : Shape s false wt.st.kickoff) (hcloses : wt.closes = 0)
    (hahead : Ahead wt.st.wheel h)
  | closed (hshape : Shape s true wt.st.kickoff) (hcloses : wt.closes = 1)

structure Watch (s : Nat) (wt : Watched c) (h : List (Event c Entry)) : Prop where
  logged : Logged s wt.st.wheel h
  since : Since wt.idle wt.st.wheel h
  phase : Phase s wt h

theorem Watch.notLate (hw : Watch s wt h) : NotLate s wt := by
  obtain ⟨hlogged, hsince, hphase⟩ := hw
  cases hphase with
  | off hkickoff hcloses =>
    refine ⟨fun hne => absurd ?_ hne, by omega⟩
    rw [hkickoff]
    rfl
  | held hshape hcloses hahead =>
    refine ⟨fun _ hidle => ?_, by omega⟩
    obtain ⟨a, ha, hown, hlt⟩ := hahead
    have hold := hsince a ha hown
    have hdelay := (hlogged.own a ha 0 hown).2.2
    omega
  | closed hshape hcloses => exact ⟨fun _ _ => hcloses, by omega⟩

theorem watch_new (c : Config) (s : Nat) : Watch s (new c) [] where
  logged := logged_empty c s
  since := by rintro a ⟨⟩
  phase := .off rfl rfl (by rintro a ⟨⟩)

/-- The connection is used, and its entry inserted. -/
theorem watch_inserted {st : IdleTimeout c} (hl : Logged s w h) (hc : c.ticksInterval = 1)
    (hold : Since 0 w h) (hwheel : st.wheel = w.insertEntryInloop s (.own 0))
    (hshape : Shape s false st.kickoff) :
    Watch s ⟨st, 0, 0⟩ (h ++ [.insertEntry s (.own 0)]) := by
  have hinserted := inserted_insertOwn hl hc
  have hcounter : st.wheel.ticksCounter = w.ticksCounter := by
    rw [hwheel, ticksCounter_insertEntryInloop]
  refine ⟨?_, ?_, .held hshape rfl ?_⟩
  · show Logged s st.wheel _
    rw [hwheel]
    exact (hl.insertOwn hc).1
  · intro a ha hown
    show a.tick + 0 ≤ st.wheel.ticksCounter
    rw [hcounter]
    rw [hinserted] at ha
    rcases List.mem_append.mp ha with hin | hin
    · exact hold a hin hown
    · rw [List.mem_singleton.mp hin]
      exact Nat.le_refl _
  · refine ⟨⟨.own 0, w.ticksCounter, s + 1, false⟩, ?_, rfl, ?_⟩
    · rw [hinserted]
      exact List.mem_append_right _ List.mem_cons_self
    · show st.wheel.ticksCounter < w.ticksCounter + (s + 1)
      omega

theorem Since.zero {idle : Nat} (hs : Since idle w h) : Since 0 w h :=
  fun a ha hown => Nat.le_trans (Nat.add_le_add_left (Nat.zero_le idle) _) (hs a ha hown)

theorem watch_enableKickingOff (hw : Watch s wt h) (hc : c.ticksInterval = 1) (now : Nat) :
    ∃ h, Watch s (step s wt (.enableKickingOff now)) h := by
  obtain ⟨hlogged, hsince, hphase⟩ := hw
  cases hphase with
  | off hkickoff hcloses hnone =>
    -- the first call; the assertion refuses any other
    have hstep : step s wt (.enableKickingOff now)
        = ⟨wt.st.step s (.enableKickingOff now), 0, 0⟩ := by
      simp [step, hkickoff, Kickoff.new, hcloses]
    rw [hstep]
    refine ⟨_, watch_inserted hlogged hc (Since.zero hsince) ?_ ?_⟩
    · have hinsert : insertNew wt.st.wheel .new (Kickoff.new.enableKickingOff s)
          = wt.st.wheel.insertEntryInloop s (.own 0) := insertNew_own rfl
      rw [← hinsert]
      simp [IdleTimeout.step, hkickoff, Kickoff.new]
    · have hk : (wt.st.step s (.enableKickingOff now)).kickoff
          = Kickoff.new.enableKickingOff s := by
        simp [IdleTimeout.step, hkickoff, Kickoff.new]
      rw [hk]
      exact shape_enableKickingOff s
  | held hshape hcloses hahead =>
    have hstep : step s wt (.enableKickingOff now)
        = ⟨{ wt.st with now := now }, wt.idle, wt.closes⟩ := by
      simp [step, IdleTimeout.step, Op.now, hshape.entries_eq]
    rw [hstep]
    exact ⟨h, hlogged, hsince, .held hshape hcloses hahead⟩
  | closed hshape hcloses =>
    have hstep : step s wt (.enableKickingOff now)
        = ⟨{ wt.st with now := now }, wt.idle, wt.closes⟩ := by
      simp [step, IdleTimeout.step, Op.now, hshape.entries_eq]
    rw [hstep]
    exact ⟨h, hlogged, hsince, .closed hshape hcloses⟩

theorem watch_extendLife (hw : Watch s wt h) (hs : 0 < s) (hc : c.ticksInterval = 1)
    (now : Nat) : ∃ h, Watch s (step s wt (.extendLife now)) h := by
  obtain ⟨hlogged, hsince, hphase⟩ := hw
  cases hphase with
  | off hkickoff hcloses hnone =>
    -- there is no entry to keep alive
    have hsame : Kickoff.new.extendLife now = .new := rfl
    have hwheel : (wt.st.step s (.extendLife now)).wheel = wt.st.wheel := by
      show insertNew wt.st.wheel wt.st.kickoff (wt.st.kickoff.extendLife now) = _
      rw [hkickoff, hsame, insertNew_same rfl]
    have hkick : (wt.st.step s (.extendLife now)).kickoff = .new := by
      show wt.st.kickoff.extendLife now = _
      rw [hkickoff, hsame]
    refine ⟨h, ?_, ?_, .off hkick hcloses hnone⟩
    · show Logged s (wt.st.step s (.extendLife now)).wheel h
      rw [hwheel]
      exact hlogged
    · show Since 0 (wt.st.step s (.extendLife now)).wheel h
      rw [hwheel]
      exact Since.zero hsince
  | held hshape hcloses hahead =>
    -- within a second of the last time nothing is inserted
    rcases hshape.extendLife hs now with ⟨-, heq⟩ | ⟨hshape', -, hinserted⟩
    · have hstep : step s wt (.extendLife now)
          = ⟨{ wt.st with now := now, lastUse := now }, 0, wt.closes⟩ := by
        simp only [step, IdleTimeout.step, Op.now, heq, insertNew_same]
      rw [hstep]
      exact ⟨h, hlogged, (Since.zero hsince), .held hshape hcloses hahead⟩
    · have hstep : step s wt (.extendLife now) = ⟨wt.st.step s (.extendLife now), 0, 0⟩ := by
        have hsplit : step s wt (.extendLife now)
            = ⟨wt.st.step s (.extendLife now), 0, wt.closes⟩ := rfl
        rw [hsplit, hcloses]
      rw [hstep]
      exact ⟨_, watch_inserted hlogged hc (Since.zero hsince) (insertNew_own hinserted) hshape'⟩
  | closed hshape hcloses =>
    -- the entry has expired, and `extendLife` does not bring it back
    obtain ⟨hshape', hsame⟩ := hshape.extendLife_dead now
    have hwheel : (wt.st.step s (.extendLife now)).wheel = wt.st.wheel := insertNew_same hsame
    refine ⟨h, ?_, ?_, .closed hshape' hcloses⟩
    · show Logged s (wt.st.step s (.extendLife now)).wheel h
      rw [hwheel]
      exact hlogged
    · show Since 0 (wt.st.step s (.extendLife now)).wheel h
      rw [hwheel]
      exact Since.zero hsince

theorem watch_insertOther (hw : Watch s wt h) (now delay j : Nat) :
    ∃ h, Watch s (step s wt (.insertOther now delay j)) h := by
  obtain ⟨hlogged, hsince, hphase⟩ := hw
  have hmade := made_other (after h) delay j
  have hcounter := ticksCounter_insertEntryInloop wt.st.wheel delay (.other j)
  refine ⟨_, hlogged.other hmade, ?_, ?_⟩
  · intro a ha hown
    show a.tick + wt.idle ≤ (wt.st.wheel.insertEntryInloop delay (.other j)).ticksCounter
    rw [hcounter]
    exact hsince a ((mem_inserted_other hmade hown).mp ha) hown
  · cases hphase with
    | off hkickoff hcloses hnone =>
      refine .off hkickoff hcloses fun a ha hown => ?_
      exact hnone a ((mem_inserted_other hmade hown).mp ha) hown
    | held hshape hcloses hahead =>
      obtain ⟨a, ha, hown, hlt⟩ := hahead
      refine .held hshape hcloses ⟨a, (mem_inserted_other hmade hown).mpr ha, hown, ?_⟩
      show (wt.st.wheel.insertEntryInloop delay (.other j)).ticksCounter < _
      rw [hcounter]
      exact hlt
    | closed hshape hcloses => exact .closed hshape hcloses

/-- An entry that a tick does not destroy has a deadline after it. -/
theorem Ahead.tick (hl : Logged s w h) (hreach : Reaches c (s + 1)) {r : Round c}
    (hahead : Ahead w h) (hkept : .own 0 ∉ (w.tick r.tick).2) :
    ∃ a ∈ inserted h, a.entry = .own 0 ∧ w.ticksCounter + 1 < a.tick + a.delay := by
  obtain ⟨a, ha, hown, hlt⟩ := hahead
  by_contra hnone
  refine hkept ((hl.destroys_iff hreach r 0).mpr ⟨⟨a, ha, hown, ?_⟩, ?_⟩)
  · by_contra hne
    exact hnone ⟨a, ha, hown, by omega⟩
  · rintro d ⟨b, hb, hown', rfl⟩
    by_contra hmore
    exact hnone ⟨b, hb, hown', by omega⟩

theorem kicks_other (k : Kickoff) {entries : List Entry} (hout : ∀ i, .own i ∉ entries) :
    kicks k entries = 0 := by
  induction entries with
  | nil => rfl
  | cons e entries ih =>
    have hrest : ∀ i, .own i ∉ entries := fun i hi => hout i (List.mem_cons_of_mem e hi)
    cases e with
    | own i => exact absurd List.mem_cons_self (hout i)
    | other j => exact ih hrest

theorem watch_tick (hw : Watch s wt h) (hreach : Reaches c (s + 1)) (now : Nat) (r : Round c) :
    ∃ h, Watch s (step s wt (.tick now r)) h := by
  obtain ⟨hlogged, hsince, hphase⟩ := hw
  have hmade := made_tick (after h) r
  have hcounter : (wt.st.wheel.tick r.tick).1.ticksCounter = wt.st.wheel.ticksCounter + 1 :=
    hlogged.ticksCounter_tick hreach r
  refine ⟨_, hlogged.other hmade, ?_, ?_⟩
  · intro a ha hown
    have hold := hsince a ((mem_inserted_other hmade hown).mp ha) hown
    show a.tick + (wt.idle + 1) ≤ (wt.st.wheel.tick r.tick).1.ticksCounter
    omega
  · -- only the own entry of a held kick-off closes the connection when its tick comes
    cases hphase with
    | off hkickoff hcloses hnone =>
      have hout : ∀ i, .own i ∉ (wt.st.wheel.tick r.tick).2 := by
        intro i hdes
        obtain ⟨-, ⟨a, ha, hown, -⟩, -⟩ := exists_of_destroyed hlogged hreach hdes
        exact hnone a ha hown
      refine .off ?_ ?_ fun a ha hown => hnone a ((mem_inserted_other hmade hown).mp ha) hown
      · exact (destroyed_new _ hout).trans hkickoff
      · show wt.closes + kicks wt.st.kickoff (wt.st.wheel.tick r.tick).2 = 0
        rw [hcloses, kicks_other _ hout]
    | held hshape hcloses hahead =>
      obtain ⟨hshape', -⟩ := hshape.tick (wt.st.wheel.tick r.tick).2
      have hkicks := hshape.kicks (wt.st.wheel.tick r.tick).2
      -- the tick drops its last copy, or another one lies ahead
      by_cases hdes : .own 0 ∈ (wt.st.wheel.tick r.tick).2
      · rw [decide_eq_true hdes] at hshape'
        rw [if_pos ⟨rfl, hdes⟩] at hkicks
        refine .closed hshape' ?_
        show wt.closes + kicks wt.st.kickoff (wt.st.wheel.tick r.tick).2 = 1
        rw [hcloses, hkicks]
      · obtain ⟨a, ha, hown, hlt⟩ := Ahead.tick hlogged hreach hahead hdes
        rw [decide_eq_false hdes] at hshape'
        rw [if_neg fun hboth => hdes hboth.2] at hkicks
        refine .held hshape' ?_ ⟨a, (mem_inserted_other hmade hown).mpr ha, hown, ?_⟩
        · show wt.closes + kicks wt.st.kickoff (wt.st.wheel.tick r.tick).2 = 0
          rw [hcloses, hkicks]
        · show (wt.st.wheel.tick r.tick).1.ticksCounter < _
          rw [hcounter]
          exact hlt
    | closed hshape hcloses =>
      obtain ⟨hshape', -⟩ := hshape.tick (wt.st.wheel.tick r.tick).2
      have hkicks := hshape.kicks (wt.st.wheel.tick r.tick).2
      rw [if_neg fun hboth => Bool.noConfusion hboth.1] at hkicks
      refine .closed hshape' ?_
      show wt.closes + kicks wt.st.kickoff (wt.st.wheel.tick r.tick).2 = 1
      rw [hcloses, hkicks]

theorem watch_step (hw : Watch s wt h) (hs : 0 < s) (hc : c.ticksInterval = 1)
    (hreach : Reaches c (s + 1)) (op : Op c) : ∃ h, Watch s (step s wt op) h := by
  cases op with
  | enableKickingOff now => exact watch_enableKickingOff hw hc now
  | extendLife now => exact watch_extendLife hw hs hc now
  | insertOther now delay j => exact watch_insertOther hw now delay j
  | tick now r => exact watch_tick hw hreach now r

/-- **Never late**: with the wheel that the server makes for a timeout of `s` seconds, a connection
that kicking off is enabled for has been closed when `s + 1` ticks have come since its last read
or write, in every state of every run; and it is closed once. -/
theorem never_late {s : Nat} (hs : 2 ≤ s) (hexact : s < 2 ^ 24) :
    ∃ c, wheelConfig s = some c ∧ ∀ ops : List (Op c),
      Runs.Always (step s) (NotLate s) (new c) ops := by
  obtain ⟨c, hconfig⟩ := wheelConfig_isSome hs hexact
  obtain ⟨hc, hreach⟩ := wheelConfig_spec hconfig
  refine ⟨c, hconfig, fun ops => ?_⟩
  have hall := Runs.always_of_step (I := fun wt => ∃ h, Watch s wt h)
    (fun _ op hi => watch_step hi.choose_spec (by omega) hc hreach op) ⟨[], watch_new c s⟩ ops
  exact hall.mono fun _ hi => hi.choose_spec.notLate

/-- A timeout of two seconds and a connection that is used once. -/
theorem never_late_two :
    ∃ c, wheelConfig 2 = some c ∧
      Runs.Always (step 2) (NotLate 2) (new c) (usedTwice c ++ (usedTwice c).drop 4) := by
  obtain ⟨c, hconfig, hrun⟩ := never_late (s := 2) (by decide) (by decide)
  exact ⟨c, hconfig, hrun _⟩

end Watched

end IdleTimeout

end XiaoNet
