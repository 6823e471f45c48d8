import XiaoNet.Net.IdleTimeout

/-!
# An active connection is not kicked off

After a read or a write at time `u` the entry has been inserted at some `v` with
`u < v + 1` second. From then on the wheel holds it for `s + 1` ticks; the first of them comes
after `v`, and every other one at least a second after the one before.

- `Logged`: the insertions of the connection that the wheel has seen.
- `Shape`: the members of the connection, once `enableKickingOff` has been called.
- `Off`, `Alive`, `Gone`: before it is called, while the wheel holds the entry, and afterwards.
-/

namespace XiaoNet

open TimingWheel

namespace IdleTimeout

variable {c : Config} {s : Nat} {w : TimingWheel c Entry} {h : List (Event c Entry)}

/-! ## The wheel -/

theorem ticksCounter_insertEntryInloop (w : TimingWheel c Entry) (delay : Nat) (e : Entry) :
    (w.insertEntryInloop delay e).ticksCounter = w.ticksCounter := by
  obtain ⟨i, k, x, heq, -⟩ := insertEntryInloop_spec w delay e
  rw [heq, ticksCounter_insertAt]

theorem inserted_concat (h : List (Event c Entry)) (ev : Event c Entry) :
    inserted (h ++ [ev]) = inserted h ++ made (after h) ev := by
  rw [inserted, insertions_append]
  show _ ++ (made (after h) ev ++ []) = _
  rw [List.append_nil]
  rfl

theorem after_concat (h : List (Event c Entry)) (ev : Event c Entry) :
    after (h ++ [ev]) = TimingWheel.step (after h) ev :=
  after_append h [ev]

/-- The connection has only inserted entry 0, between ticks and for `s + 1` ticks. -/
structure Logged (s : Nat) (w : TimingWheel c Entry) (h : List (Event c Entry)) : Prop where
  wheel_eq : w = after h
  own : ∀ a ∈ inserted h, ∀ i, a.entry = .own i → i = 0 ∧ a.inTick = false ∧ a.delay = s + 1

theorem logged_empty (c : Config) (s : Nat) : Logged s (.empty c Entry) [] :=
  ⟨rfl, fun _ ha => nomatch ha⟩

theorem tickDelay_eq (hc : c.ticksInterval = 1) (s : Nat) : tickDelay c s = s + 1 := by
  have hcast : (s : ℚ) / 1 + 1 = ((s + 1 : Nat) : ℚ) := by
    push_cast
    ring
  rw [tickDelay, hc, hcast, Nat.floor_natCast]

theorem Logged.insertOwn (hl : Logged s w h) (hc : c.ticksInterval = 1) :
    Logged s (w.insertEntryInloop s (.own 0)) (h ++ [.insertEntry s (.own 0)]) ∧
      ⟨.own 0, w.ticksCounter, s + 1, false⟩ ∈ inserted (h ++ [.insertEntry s (.own 0)]) := by
  have hmade : made (after h) (.insertEntry s (.own 0))
      = [⟨.own 0, w.ticksCounter, s + 1, false⟩] := by
    rw [made, tickDelay_eq hc, hl.wheel_eq]
  rw [inserted_concat, hmade]
  refine ⟨⟨?_, fun a ha i hi => ?_⟩, by simp⟩
  · rw [after_concat, hl.wheel_eq]
    rfl
  · rw [inserted_concat, hmade] at ha
    rcases List.mem_append.mp ha with hold | hnew
    · exact hl.own a hold i hi
    · rw [List.mem_singleton.mp hnew] at hi ⊢
      cases hi
      exact ⟨rfl, rfl, rfl⟩

/-- An event of other connections. -/
theorem Logged.other {ev : Event c Entry} (hl : Logged s w h)
    (hev : ∀ a ∈ made (after h) ev, ∀ i, a.entry ≠ .own i) :
    Logged s (TimingWheel.step w ev) (h ++ [ev]) where
  wheel_eq := by rw [after_concat, hl.wheel_eq]
  own a ha i hi := by
    rw [inserted_concat] at ha
    rcases List.mem_append.mp ha with hold | hnew
    · exact hl.own a hold i hi
    · exact absurd hi (hev a hnew i)

theorem made_other (w : TimingWheel c Entry) (delay j : Nat) :
    ∀ a ∈ made w (.insertEntry delay (.other j)), ∀ i, a.entry ≠ .own i := by
  intro a ha i
  rw [List.mem_singleton.mp ha]
  nofun

theorem made_tick (w : TimingWheel c Entry) (r : Round c) :
    ∀ a ∈ made w (.tick r.tick), ∀ i, a.entry ≠ .own i := by
  intro a ha i
  obtain ⟨b, hb, rfl⟩ := List.mem_map.mp ha
  obtain ⟨e, -, he⟩ := List.mem_flatMap.mp hb
  obtain ⟨d, -, rfl⟩ := List.mem_map.mp he
  nofun

theorem Logged.inRange (hl : Logged s w h) (hreach : Reaches c (s + 1)) (i : Nat) :
    InRange c (.own i) (inserted h) := by
  intro a ha hi
  rw [(hl.own a ha i hi).2.2]
  exact hreach

theorem Logged.ticksCounter_tick (hl : Logged s w h) (hreach : Reaches c (s + 1)) (r : Round c) :
    (w.tick r.tick).1.ticksCounter = w.ticksCounter + 1 := by
  have htracks := tracks_after h (.own 0) (hl.inRange hreach 0)
  rw [hl.wheel_eq]
  refine (tick_spec r.tick htracks.ordered (e := .own 0) fun a ha hae => ?_).2.1
  exact absurd hae (made_tick (after h) r _ (List.mem_map_of_mem ha) 0)

/-- A tick destroys the entry exactly when it is the last one that an insertion asks for. -/
theorem Logged.destroys_iff (hl : Logged s w h) (hreach : Reaches c (s + 1)) (r : Round c)
    (i : Nat) :
    .own i ∈ (w.tick r.tick).2 ↔
      IsGreatest {d | ∃ a ∈ inserted h, a.entry = .own i ∧ a.tick + a.delay = d}
        (w.ticksCounter + 1) := by
  have hdes := (holds_until_deadline h (.own i) (fun a ha hi => (hl.own a ha i hi).2.1)
    (hl.inRange hreach i)).2 r.tick rfl fun a ha => made_tick (after h) r a ha i
  rw [hl.wheel_eq]
  exact hdes

/-! ## The members of the connection -/

/-- Kicking off is enabled; `dead` says whether the entry has been destroyed. -/
structure Shape (s : Nat) (dead : Bool) (k : Kickoff) : Prop where
  idleTimeout_eq : k.idleTimeout = s
  kickoffEntry_eq : k.kickoffEntry = some 0
  timingWheel_eq : k.timingWheel = true
  entries_eq : k.entries = [⟨true, dead⟩]

variable {k : Kickoff} {dead : Bool}

theorem shape_enableKickingOff (s : Nat) : Shape s false (Kickoff.new.enableKickingOff s) :=
  ⟨rfl, rfl, rfl, rfl⟩

theorem Shape.lock_eq (hk : Shape s dead k) : k.lock = if dead then none else some 0 := by
  rw [Kickoff.lock, hk.kickoffEntry_eq, hk.entries_eq]
  cases dead <;> rfl

/-- Within a second of the last insertion nothing happens; later the entry is inserted. -/
theorem Shape.extendLife (hk : Shape s false k) (hs : 0 < s) (now : Nat) :
    (now < k.lastTimingWheelUpdateTime + Kickoff.second ∧ k.extendLife now = k) ∨
      (Shape s false (k.extendLife now) ∧
        (k.extendLife now).lastTimingWheelUpdateTime = now ∧
        (k.extendLife now).inserted = k.inserted ++ [(s, 0)]) := by
  have hlock : ({ k with lastTimingWheelUpdateTime := now }).lock = some 0 := hk.lock_eq
  have hpos : k.idleTimeout > 0 := by
    rw [hk.idleTimeout_eq]
    exact hs
  by_cases hrecent : now < k.lastTimingWheelUpdateTime + Kickoff.second
  · exact .inl ⟨hrecent, by rw [Kickoff.extendLife, if_pos hpos, if_pos hrecent]⟩
  · have heq : k.extendLife now =
        { k with
          lastTimingWheelUpdateTime := now
          inserted := k.inserted ++ [(k.idleTimeout, 0)] } := by
      rw [Kickoff.extendLife, if_pos hpos, if_neg hrecent]
      simp only [hlock]
      rw [if_pos hk.timingWheel_eq]
    rw [heq]
    refine .inr ⟨?_, rfl, by rw [hk.idleTimeout_eq]⟩
    exact ⟨hk.idleTimeout_eq, hk.kickoffEntry_eq, hk.timingWheel_eq, hk.entries_eq⟩

/-- An entry that is gone is not inserted. -/
theorem Shape.extendLife_dead (hk : Shape s true k) (now : Nat) :
    Shape s true (k.extendLife now) ∧ (k.extendLife now).inserted = k.inserted := by
  have hlock : ({ k with lastTimingWheelUpdateTime := now }).lock = none := hk.lock_eq
  unfold Kickoff.extendLife
  split
  · split
    · exact ⟨hk, rfl⟩
    · simp only [hlock]
      exact ⟨⟨hk.idleTimeout_eq, hk.kickoffEntry_eq, hk.timingWheel_eq, hk.entries_eq⟩, trivial⟩
  · exact ⟨hk, rfl⟩

theorem Shape.destroyed (hk : Shape s dead k) (e : Entry) :
    Shape s (dead || decide (e = .own 0)) (destroyed k e) ∧
      (IdleTimeout.destroyed k e).lastTimingWheelUpdateTime = k.lastTimingWheelUpdateTime := by
  cases e with
  | other j => simpa [IdleTimeout.destroyed] using hk
  | own i =>
    refine ⟨⟨hk.idleTimeout_eq, hk.kickoffEntry_eq, hk.timingWheel_eq, ?_⟩, rfl⟩
    show k.entries.modify i _ = _
    rw [hk.entries_eq]
    cases i with
    | zero => simp
    | succ i => simp

/-- What a tick does to the members. -/
theorem Shape.tick (hk : Shape s dead k) (entries : List Entry) :
    Shape s (dead || decide (.own 0 ∈ entries)) (entries.foldl IdleTimeout.destroyed k) ∧
      (entries.foldl IdleTimeout.destroyed k).lastTimingWheelUpdateTime
        = k.lastTimingWheelUpdateTime := by
  induction entries generalizing k dead with
  | nil => simpa using hk
  | cons e entries ih =>
    obtain ⟨hone, hlast⟩ := hk.destroyed e
    obtain ⟨hrest, hlast'⟩ := ih hone
    refine ⟨?_, hlast'.trans hlast⟩
    have hmem : (dead || decide (.own 0 ∈ e :: entries))
        = (dead || decide (e = .own 0) || decide (.own 0 ∈ entries)) := by
      simp [Bool.or_assoc, eq_comm]
    rw [hmem]
    exact hrest

theorem destroyed_new (entries : List Entry) (hout : ∀ i, .own i ∉ entries) :
    entries.foldl IdleTimeout.destroyed k = k := by
  induction entries with
  | nil => rfl
  | cons e entries ih =>
    have hrest : ∀ i, .own i ∉ entries := fun i hi => hout i (List.mem_cons_of_mem e hi)
    cases e with
    | own i => exact absurd List.mem_cons_self (hout i)
    | other j => exact ih hrest

/-! ## The invariant -/

variable {st : IdleTimeout c}

/-- Before `enableKickingOff`. -/
structure Off (st : IdleTimeout c) (h : List (Event c Entry)) : Prop where
  kickoff_eq : st.kickoff = .new
  none : ∀ a ∈ inserted h, ∀ i, a.entry ≠ .own i

/-- The last insertion, at time `v`: it covers the reads and writes up to a second later, and
of the ticks since, the first came after `v` and the others at least a second apart. -/
structure Refreshed (st : IdleTimeout c) (v tick : Nat) : Prop where
  update_le : st.kickoff.lastTimingWheelUpdateTime ≤ v
  use_lt : st.lastUse < v + Kickoff.second
  le_now : v ≤ st.now
  tick_le : tick ≤ st.wheel.ticksCounter
  ticked : tick < st.wheel.ticksCounter → ∃ last ∈ st.lastTick,
    v + (st.wheel.ticksCounter - tick - 1) * Kickoff.second ≤ last

structure Alive (s : Nat) (st : IdleTimeout c) (h : List (Event c Entry)) : Prop where
  shape : Shape s false st.kickoff
  refreshed : ∃ v, ∃ a ∈ inserted h, a.entry = .own 0 ∧ st.Refreshed v a.tick

/-- The entry has been destroyed. -/
structure Gone (s : Nat) (st : IdleTimeout c) (h : List (Event c Entry)) : Prop where
  shape : Shape s true st.kickoff
  expired : ∀ a ∈ inserted h, a.entry = .own 0 → a.tick + a.delay ≤ st.wheel.ticksCounter

def Inv (s : Nat) (st : IdleTimeout c) : Prop :=
  ∃ h, Logged s st.wheel h ∧ (st.Off h ∨ Alive s st h ∨ Gone s st h)

theorem inv_new (c : Config) (s : Nat) : Inv s (new c) :=
  ⟨[], logged_empty c s, .inl ⟨rfl, fun _ ha => nomatch ha⟩⟩

/-! ## Inserting -/

theorem insertNew_same {k' : Kickoff} (hk : k'.inserted = k.inserted) :
    insertNew w k k' = w := by
  rw [insertNew, hk, List.drop_length]
  rfl

theorem insertNew_own {k' : Kickoff} (hk : k'.inserted = k.inserted ++ [(s, 0)]) :
    insertNew w k k' = w.insertEntryInloop s (.own 0) := by
  rw [insertNew, hk, List.drop_left]
  rfl

/-- A read or a write, or `enableKickingOff`, that inserts the entry at time `now`. -/
theorem alive_inserted (hl : Logged s w h) (hc : c.ticksInterval = 1) {now : Nat}
    (hshape : Shape s false k) (hupdate : k.lastTimingWheelUpdateTime ≤ now)
    (lastTick : Option Nat) :
    Inv s ⟨w.insertEntryInloop s (.own 0), k, now, lastTick, now⟩ := by
  obtain ⟨hlog, hmem⟩ := hl.insertOwn hc
  have hcounter := ticksCounter_insertEntryInloop w s (.own 0)
  refine ⟨_, hlog, .inr (.inl ⟨hshape, now, _, hmem, rfl, ?_⟩)⟩
  refine ⟨hupdate, ?_, Nat.le_refl _, Nat.le_of_eq hcounter.symm, fun hlt => ?_⟩
  · exact Nat.lt_add_of_pos_right (by decide)
  · have hlt' : w.ticksCounter < (w.insertEntryInloop s (.own 0)).ticksCounter := hlt
    rw [hcounter] at hlt'
    exact absurd hlt' (Nat.lt_irrefl _)

/-- Time goes by, and what is used is covered by the last insertion. -/
theorem Refreshed.use {v tick : Nat} (hr : st.Refreshed v tick) {now use : Nat}
    (hnow : st.now ≤ now) (huse : use < v + Kickoff.second) :
    Refreshed { st with now := now, lastUse := use } v tick :=
  ⟨hr.update_le, huse, Nat.le_trans hr.le_now hnow, hr.tick_le, hr.ticked⟩

theorem inv_enableKickingOff (hi : Inv s st) (hc : c.ticksInterval = 1) (now : Nat)
    (hnow : st.now ≤ now) : Inv s (step s st (.enableKickingOff now)) := by
  obtain ⟨h, hl, hoff | halive | hgone⟩ := hi
  · have heq : step s st (.enableKickingOff now) =
        ⟨st.wheel.insertEntryInloop s (.own 0), Kickoff.new.enableKickingOff s, now,
          st.lastTick, now⟩ := by
      have hinsert : insertNew st.wheel .new (Kickoff.new.enableKickingOff s)
          = st.wheel.insertEntryInloop s (.own 0) := insertNew_own rfl
      rw [← hinsert]
      simp [step, Op.now, hoff.kickoff_eq, Kickoff.new]
    rw [heq]
    exact alive_inserted hl hc (shape_enableKickingOff s) (Nat.zero_le _) _
  · obtain ⟨v, a, ha, hown, hr⟩ := halive.refreshed
    have heq : step s st (.enableKickingOff now) = { st with now := now } := by
      simp [step, Op.now, halive.shape.entries_eq]
    rw [heq]
    exact ⟨h, hl, .inr (.inl ⟨halive.shape, v, a, ha, hown, hr.use hnow hr.use_lt⟩)⟩
  · have heq : step s st (.enableKickingOff now) = { st with now := now } := by
      simp [step, Op.now, hgone.shape.entries_eq]
    rw [heq]
    exact ⟨h, hl, .inr (.inr ⟨hgone.shape, hgone.expired⟩)⟩

theorem inv_extendLife (hi : Inv s st) (hs : 0 < s) (hc : c.ticksInterval = 1) (now : Nat)
    (hnow : st.now ≤ now) : Inv s (step s st (.extendLife now)) := by
  obtain ⟨h, hl, hoff | halive | hgone⟩ := hi
  · have hsame : Kickoff.new.extendLife now = .new := rfl
    refine ⟨h, ?_, .inl ⟨?_, hoff.none⟩⟩
    · show Logged s (insertNew st.wheel st.kickoff (st.kickoff.extendLife now)) h
      rw [hoff.kickoff_eq, hsame, insertNew_same rfl]
      exact hl
    · show st.kickoff.extendLife now = .new
      rw [hoff.kickoff_eq, hsame]
  · obtain ⟨v, a, ha, hown, hr⟩ := halive.refreshed
    rcases halive.shape.extendLife hs now with ⟨hrecent, heq⟩ | ⟨hshape, hupdate, hinserted⟩
    · -- `extendLife` returns early, and the last insertion still covers this use
      have hstep : step s st (.extendLife now) = { st with now := now, lastUse := now } := by
        simp only [step, Op.now, heq, insertNew_same]
      have huse : now < v + Kickoff.second :=
        Nat.lt_of_lt_of_le hrecent (Nat.add_le_add_right hr.update_le _)
      rw [hstep]
      exact ⟨h, hl, .inr (.inl ⟨halive.shape, v, a, ha, hown, hr.use hnow huse⟩)⟩
    · have hstep : step s st (.extendLife now) =
          ⟨st.wheel.insertEntryInloop s (.own 0), st.kickoff.extendLife now, now, st.lastTick,
            now⟩ := by
        rw [← insertNew_own hinserted]
        rfl
      rw [hstep]
      exact alive_inserted hl hc hshape hupdate.le _
  · obtain ⟨hshape, hsame⟩ := hgone.shape.extendLife_dead now
    have hwheel : (step s st (.extendLife now)).wheel = st.wheel := insertNew_same hsame
    refine ⟨h, ?_, .inr (.inr ⟨hshape, ?_⟩)⟩
    · rw [hwheel]
      exact hl
    · rw [hwheel]
      exact hgone.expired

theorem inv_insertOther (hi : Inv s st) (now delay j : Nat) (hnow : st.now ≤ now) :
    Inv s (step s st (.insertOther now delay j)) := by
  obtain ⟨h, hl, hphase⟩ := hi
  have hmade := made_other (after h) delay j
  -- the entry of another connection is none of the own ones
  have hinserted : ∀ a ∈ inserted (h ++ [.insertEntry delay (.other j)]), ∀ i,
      a.entry = .own i → a ∈ inserted h := by
    intro a ha i hown
    rw [inserted_concat] at ha
    rcases List.mem_append.mp ha with hold | hnew
    · exact hold
    · exact absurd hown (hmade a hnew i)
  have hcounter := ticksCounter_insertEntryInloop st.wheel delay (.other j)
  refine ⟨_, hl.other hmade, ?_⟩
  rcases hphase with hoff | halive | hgone
  · exact .inl ⟨hoff.kickoff_eq, fun a ha i hown =>
      hoff.none a (hinserted a ha i hown) i hown⟩
  · obtain ⟨v, a, ha, hown, hr⟩ := halive.refreshed
    refine .inr (.inl ⟨halive.shape, v, a, ?_, hown, ?_⟩)
    · rw [inserted_concat]
      exact List.mem_append_left _ ha
    · refine ⟨hr.update_le, hr.use_lt, Nat.le_trans hr.le_now hnow, ?_, ?_⟩
      · show a.tick ≤ (st.wheel.insertEntryInloop delay (.other j)).ticksCounter
        rw [hcounter]
        exact hr.tick_le
      · show a.tick < (st.wheel.insertEntryInloop delay (.other j)).ticksCounter → ∃ last ∈ _,
          v + ((st.wheel.insertEntryInloop delay (.other j)).ticksCounter - a.tick - 1) * _ ≤ last
        rw [hcounter]
        exact hr.ticked
  · refine .inr (.inr ⟨hgone.shape, fun a ha hown => ?_⟩)
    show a.tick + a.delay ≤ (st.wheel.insertEntryInloop delay (.other j)).ticksCounter
    rw [hcounter]
    exact hgone.expired a (hinserted a ha 0 hown) hown

/-! ## A tick -/

/-- An entry of the connection that a tick destroys has been inserted for it. -/
theorem exists_of_destroyed (hl : Logged s st.wheel h) (hreach : Reaches c (s + 1)) {r : Round c}
    {i : Nat} (hdes : .own i ∈ (st.wheel.tick r.tick).2) :
    i = 0 ∧ (∃ a ∈ inserted h, a.entry = .own 0 ∧ a.tick + a.delay = st.wheel.ticksCounter + 1) ∧
      ∀ a ∈ inserted h, a.entry = .own 0 → a.tick + a.delay ≤ st.wheel.ticksCounter + 1 := by
  obtain ⟨⟨a, ha, hown, hlast⟩, hup⟩ := (hl.destroys_iff hreach r i).mp hdes
  obtain ⟨rfl, -, -⟩ := hl.own a ha i hown
  exact ⟨rfl, ⟨a, ha, hown, hlast⟩, fun b hb hown' => hup ⟨b, hb, hown', rfl⟩⟩

/-- The ticks that the wheel has seen since the last insertion took their time. -/
theorem Refreshed.elapsed {v tick : Nat} (hr : st.Refreshed v tick) {now : Nat} {r : Round c}
    (htimely : st.Timely (.tick now r)) :
    v + (st.wheel.ticksCounter - tick) * Kickoff.second ≤ now := by
  -- the first tick after the insertion may come at once, each later one takes a second
  rcases Nat.eq_or_lt_of_le hr.tick_le with heq | hlt
  · have hnow : v ≤ now := Nat.le_trans hr.le_now htimely.1
    rw [heq, Nat.sub_self, Nat.zero_mul]
    exact hnow
  · obtain ⟨last, hmem, hle⟩ := hr.ticked hlt
    have hgap : last + Kickoff.second ≤ now := htimely.2 last hmem
    obtain ⟨n, hn⟩ : ∃ n, st.wheel.ticksCounter - tick = n + 1 :=
      ⟨st.wheel.ticksCounter - tick - 1, by omega⟩
    rw [hn, Nat.add_sub_cancel] at hle
    calc v + (st.wheel.ticksCounter - tick) * Kickoff.second
        = v + n * Kickoff.second + Kickoff.second := by rw [hn, Nat.succ_mul, Nat.add_assoc]
      _ ≤ last + Kickoff.second := Nat.add_le_add_right hle _
      _ ≤ now := hgap

/-- A tick that destroys the entry has waited for `s` ticks since the last insertion. -/
theorem notEarly_tick (hi : Inv s st) (hs : 0 < s) (hreach : Reaches c (s + 1)) {now : Nat}
    {r : Round c} (htimely : st.Timely (.tick now r)) : NotEarly s st (.tick now r) := by
  intro i hdes
  obtain ⟨h, hl, hphase⟩ := hi
  obtain ⟨rfl, ⟨b, hb, hown, hlast⟩, hup⟩ := exists_of_destroyed hl hreach hdes
  rcases hphase with hoff | halive | hgone
  · exact absurd hown (hoff.none b hb 0)
  · obtain ⟨v, a, ha, hown', hr⟩ := halive.refreshed
    have helapsed := hr.elapsed htimely
    have hdelay := (hl.own a ha 0 hown').2.2
    have hticks : s ≤ st.wheel.ticksCounter - a.tick := by
      have hle := hup a ha hown'
      omega
    obtain ⟨n, rfl⟩ : ∃ n, s = n + 1 := ⟨s - 1, by omega⟩
    -- one second is lost to the throttle, the other `s - 1` are waited for
    calc st.lastUse + (n + 1 - 1) * Kickoff.second
        ≤ v + Kickoff.second + n * Kickoff.second := by
          rw [Nat.add_sub_cancel]
          exact Nat.add_le_add_right hr.use_lt.le _
      _ = v + (n + 1) * Kickoff.second := by rw [Nat.succ_mul]; omega
      _ ≤ v + (st.wheel.ticksCounter - a.tick) * Kickoff.second :=
          Nat.add_le_add_left (Nat.mul_le_mul_right _ hticks) v
      _ ≤ now := helapsed
  · have hle := hgone.expired b hb hown
    omega

theorem inv_tick (hi : Inv s st) (hreach : Reaches c (s + 1)) {now : Nat} {r : Round c}
    (htimely : st.Timely (.tick now r)) : Inv s (step s st (.tick now r)) := by
  obtain ⟨h, hl, hphase⟩ := hi
  have hmade := made_tick (after h) r
  have hinserted : inserted (h ++ [.tick r.tick])
      = inserted h ++ made (after h) (.tick r.tick) := inserted_concat h _
  have hcounter : (step s st (.tick now r)).wheel.ticksCounter = st.wheel.ticksCounter + 1 :=
    hl.ticksCounter_tick hreach r
  refine ⟨_, hl.other hmade, ?_⟩
  rcases hphase with hoff | halive | hgone
  · refine .inl ⟨?_, ?_⟩
    · have hout : ∀ i, .own i ∉ (st.wheel.tick r.tick).2 := by
        intro i hdes
        obtain ⟨-, ⟨a, ha, hown, -⟩, -⟩ := exists_of_destroyed hl hreach hdes
        exact hoff.none a ha 0 hown
      exact (destroyed_new _ hout).trans hoff.kickoff_eq
    · intro a ha i
      rw [hinserted] at ha
      rcases List.mem_append.mp ha with hold | hnew
      · exact hoff.none a hold i
      · exact hmade a hnew i
  · obtain ⟨hshape, hupdate⟩ := halive.shape.tick (st.wheel.tick r.tick).2
    -- either the last reference went with this tick, or a later insertion keeps the entry
    by_cases hdes : .own 0 ∈ (st.wheel.tick r.tick).2
    · obtain ⟨-, -, hup⟩ := exists_of_destroyed hl hreach hdes
      rw [decide_eq_true hdes] at hshape
      refine .inr (.inr ⟨hshape, fun a ha hown => ?_⟩)
      rw [hinserted] at ha
      rw [hcounter]
      rcases List.mem_append.mp ha with hold | hnew
      · exact hup a hold hown
      · exact absurd hown (hmade a hnew 0)
    · obtain ⟨v, a, ha, hown, hr⟩ := halive.refreshed
      rw [decide_eq_false hdes] at hshape
      refine .inr (.inl ⟨hshape, v, a, ?_, hown, ?_⟩)
      · rw [hinserted]
        exact List.mem_append_left _ ha
      · refine ⟨hupdate.le.trans hr.update_le, hr.use_lt,
          Nat.le_trans hr.le_now htimely.1, ?_, fun _ => ⟨now, rfl, ?_⟩⟩
        · rw [hcounter]
          exact Nat.le_succ_of_le hr.tick_le
        · have hsub : st.wheel.ticksCounter + 1 - a.tick - 1 = st.wheel.ticksCounter - a.tick := by
            omega
          rw [hcounter, hsub]
          exact hr.elapsed htimely
  · obtain ⟨hshape, -⟩ := hgone.shape.tick (st.wheel.tick r.tick).2
    refine .inr (.inr ⟨hshape, fun a ha hown => ?_⟩)
    rw [hinserted] at ha
    rw [hcounter]
    rcases List.mem_append.mp ha with hold | hnew
    · exact Nat.le_succ_of_le (hgone.expired a hold hown)
    · exact absurd hown (hmade a hnew 0)

theorem inv_step (hi : Inv s st) (hs : 0 < s) (hc : c.ticksInterval = 1)
    (hreach : Reaches c (s + 1)) {op : Op c} (htimely : st.Timely op) : Inv s (step s st op) := by
  cases op with
  | enableKickingOff now => exact inv_enableKickingOff hi hc now htimely.1
  | extendLife now => exact inv_extendLife hi hs hc now htimely.1
  | insertOther now delay j => exact inv_insertOther hi now delay j htimely.1
  | tick now r => exact inv_tick hi hreach htimely

/-- **Never early**: with the wheel that the server makes for a timeout of `s` seconds, no tick
of any run destroys the entry of a connection, and so closes it, less than `s - 1` seconds
after its last read or write. -/
theorem never_early {s : Nat} (hs : 2 ≤ s) (hexact : s < 2 ^ 24) :
    ∃ c, wheelConfig s = some c ∧ ∀ ops : List (Op c),
      Runs.Along (step s) Timely (new c) ops → Runs.Along (step s) (NotEarly s) (new c) ops := by
  obtain ⟨c, hconfig⟩ := wheelConfig_isSome hs hexact
  obtain ⟨hc, hreach⟩ := wheelConfig_spec hconfig
  have hpos : 0 < s := by omega
  refine ⟨c, hconfig, fun ops htimely => ?_⟩
  refine Runs.along_of_invariant (I := Inv s) (H := Timely) ?_ ?_ (inv_new c s) htimely
  · exact fun st op hi ht => inv_step hi hpos hc hreach ht
  · intro st op hi ht
    cases op with
    | tick now r => exact notEarly_tick hi hpos hreach ht
    | enableKickingOff | extendLife | insertOther => trivial

/-- Used half a second before the first tick, and once more too soon to be inserted again. -/
def usedTwice (c : Config) : List (Op c) :=
  let r : Round c := ⟨id, fun _ => .refl _, fun _ => false, fun _ => []⟩
  [.enableKickingOff 1000000, .extendLife 2500000, .tick 3000000 r, .extendLife 3400000,
    .tick 4000000 r, .tick 5000000 r, .tick 6000000 r]

/-- A timeout of two seconds. -/
theorem never_early_two :
    ∃ c, wheelConfig 2 = some c ∧ Runs.Along (step 2) Timely (new c) (usedTwice c) ∧
      Runs.Along (step 2) (NotEarly 2) (new c) (usedTwice c) := by
  obtain ⟨c, hconfig, hrun⟩ := never_early (s := 2) (by decide) (by decide)
  have htimely : Runs.Along (step 2) Timely (new c) (usedTwice c) := by
    simp [usedTwice, Runs.Along, Timely, step, new, Op.now, Kickoff.new, Kickoff.second]
  exact ⟨c, hconfig, htimely, hrun _ htimely⟩

end IdleTimeout

end XiaoNet
