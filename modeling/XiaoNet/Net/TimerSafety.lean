import Mathlib.Data.List.Nodup
import XiaoNet.Lib.History
import XiaoNet.Net.TimerQueue

/-!
# Which timers run

Cancelling a timer only takes its id out of `timerIdSet_`; the timer stays in `timers_`, or in
the batch of a pass, until its time comes. `Safe` says that this is enough, whatever the
callbacks of a batch do to the queue and to the rest of the batch.

- `Added`, `Ran`, `Invalidated`: what the log says of an id.
- `Inv`: every id is of one timer, held by `timers_`, by the batch or not added yet, and the
  ids in the set are those that were added and not invalidated, apart from one-shot timers
  that have had their pass.
- `always_safe`: the law for every sequence of operations.
-/

namespace XiaoNet

open History

universe u

namespace TimerEvent

/-- The timer `id` is added. -/
def adds (id : TimerId) : TimerEvent → Prop
  | .added t => t.id = id
  | _ => False

/-- The callback of `id` is run. -/
def runs (id : TimerId) : TimerEvent → Prop
  | .ran t _ => t.id = id
  | _ => False

end TimerEvent

def Added (log : List TimerEvent) (id : TimerId) : Prop := ∃ e ∈ log, e.adds id

def Ran (log : List TimerEvent) (id : TimerId) : Prop := ∃ e ∈ log, e.runs id

/-- The timer was invalidated after it had been added. -/
def Invalidated (log : List TimerEvent) (id : TimerId) : Prop :=
  Since (TimerEvent.adds id) (.invalidated id) log

/-- When a callback may run and a timer may be put back. -/
def Lawful (before : List TimerEvent) : TimerEvent → Prop
  | .ran t now => Added before t.id ∧ t.when < now ∧ ¬ Invalidated before t.id ∧
      (t.isRepeat = false → ¬ Ran before t.id)
  | .reinserted t => ¬ Invalidated before t.id
  | _ => True

variable {log : List TimerEvent} {id : TimerId} {e : TimerEvent}

theorem added_concat : Added (log ++ [e]) id ↔ Added log id ∨ e.adds id := by
  simp [Added, or_and_right, exists_or]

theorem ran_concat : Ran (log ++ [e]) id ↔ Ran log id ∨ e.runs id := by
  simp [Ran, or_and_right, exists_or]

theorem invalidated_concat :
    Invalidated (log ++ [e]) id ↔ Invalidated log id ∨ (e = .invalidated id ∧ Added log id) :=
  since_concat

theorem Invalidated.added (h : Invalidated log id) : Added log id := h.exists_mem

/-- A timer that has run was added. -/
theorem added_of_ran (h : Each Lawful log) (hran : Ran log id) : Added log id := by
  obtain ⟨e, he, hruns⟩ := hran
  obtain ⟨before, later, rfl⟩ := List.append_of_mem he
  cases e with
  | ran t now =>
    obtain rfl : t.id = id := hruns
    obtain ⟨⟨d, hd, hadds⟩, -⟩ := h before _ later rfl
    exact ⟨d, List.mem_append_left _ hd, hadds⟩
  | _ => cases hruns

/-- Timers that are put back change nothing of what the log says. -/
theorem log_reinserted (l : List Timer) :
    (Added (log ++ l.map .reinserted) id ↔ Added log id) ∧
      (Ran (log ++ l.map .reinserted) id ↔ Ran log id) ∧
      (Invalidated (log ++ l.map .reinserted) id ↔ Invalidated log id) := by
  induction l generalizing log with
  | nil => simp
  | cons t l ih =>
    have hsplit : log ++ (t :: l).map .reinserted
        = log ++ [.reinserted t] ++ l.map .reinserted := by
      rw [List.append_assoc]
      rfl
    obtain ⟨hadded, hran, hinvalidated⟩ := @ih (log ++ [.reinserted t])
    rw [hsplit]
    refine ⟨hadded.trans ?_, hran.trans ?_, hinvalidated.trans ?_⟩
    · simp [added_concat, TimerEvent.adds]
    · simp [ran_concat, TimerEvent.runs]
    · simp [invalidated_concat]

theorem each_reinserted {l : List Timer} (h : Each Lawful log)
    (hl : ∀ t ∈ l, ¬ Invalidated log t.id) : Each Lawful (log ++ l.map .reinserted) := by
  induction l generalizing log with
  | nil => simpa using h
  | cons t l ih =>
    have hsplit : log ++ (t :: l).map .reinserted
        = log ++ [.reinserted t] ++ l.map .reinserted := by
      rw [List.append_assoc]
      rfl
    rw [hsplit]
    refine ih (each_concat.mpr ⟨h, hl t List.mem_cons_self⟩) fun t' ht' => ?_
    rw [invalidated_concat, not_or]
    exact ⟨hl t' (List.mem_cons_of_mem t ht'), fun hne => nomatch hne.1⟩

namespace TimerQueue

variable {P : PriorityQueue.{0, 0, u} Timer.when} {s : TimerQueue P}

/-- What `handleRead` has taken off. -/
def batch (s : TimerQueue P) : List Timer :=
  match s.pass with
  | none => []
  | some p => p.expired

/-- What the pass has not come to. -/
def toRun (s : TimerQueue P) : List Timer :=
  match s.pass with
  | none => []
  | some p => p.toRun

theorem batch_of_none (hpass : s.pass = none) : s.batch = [] := by
  unfold batch
  rw [hpass]

theorem batch_of_some {p : Pass} (hpass : s.pass = some p) : s.batch = p.expired := by
  unfold batch
  rw [hpass]

theorem toRun_of_some {p : Pass} (hpass : s.pass = some p) : s.toRun = p.toRun := by
  unfold toRun
  rw [hpass]

/-- The timers that have been made and are not done. -/
def all (s : TimerQueue P) : List Timer := P.elems s.timers ++ s.batch ++ s.created

/-- After a pass its repeating timers are back, each once. -/
def PutBack (s : TimerQueue P) : Prop :=
  ∀ before p, s.log = before ++ [.passed p] → ∀ t ∈ p.expired, t.isRepeat = true →
    ¬ Invalidated s.log t.id →
      (P.elems s.timers).filter (·.id = t.id) = [{ t with when := p.now + t.interval * 1000 }]

/-- The law of the queue. -/
structure Safe (s : TimerQueue P) : Prop where
  /-- A callback is run for a timer that was added, is due and was not invalidated since, and
  for a one-shot timer once; an invalidated timer is not put back. -/
  lawful : Each Lawful s.log
  put_back : s.pass = none → s.PutBack
  /-- Between passes every id in the set has its timer. -/
  one_timer : s.pass = none → ∀ id ∈ s.timerIdSet,
    ∃ t, (P.elems s.timers).filter (·.id = id) = [t]

structure Inv (s : TimerQueue P) : Prop where
  lawful : Each Lawful s.log
  nodup : (s.all.map Timer.id).Nodup
  id_le : ∀ t ∈ s.all, t.id ≤ s.timersCreated
  added_le : ∀ id, Added s.log id → id ≤ s.timersCreated
  not_added : ∀ t ∈ s.created, ¬ Added s.log t.id
  added : ∀ t ∈ P.elems s.timers ++ s.batch, Added s.log t.id
  has_timer : ∀ id ∈ s.timerIdSet, ∃ t ∈ P.elems s.timers ++ s.batch, t.id = id
  wanted : ∀ t ∈ P.elems s.timers ++ s.batch, t.id ∉ s.timerIdSet → Invalidated s.log t.id
  unwanted : ∀ id, Invalidated s.log id → id ∉ s.timerIdSet
  one_shot : ∀ t ∈ P.elems s.timers ++ s.toRun, t.isRepeat = false → ¬ Ran s.log t.id
  due : ∀ p, s.pass = some p → ∀ t ∈ p.expired, t.when < p.now
  suffix : ∀ p, s.pass = some p → p.toRun <:+ p.expired
  put_back : s.pass = none → s.PutBack

theorem inv_new : (new P).Inv where
  lawful := each_nil
  nodup := by simp [all, batch, new, P.elems_empty]
  id_le := by simp [all, batch, new, P.elems_empty]
  added_le := by simp [Added, new]
  not_added := by simp [new]
  added := by simp [batch, new, P.elems_empty]
  has_timer := by simp [new]
  wanted := by simp [batch, new, P.elems_empty]
  unwanted := by simp [new]
  one_shot := by simp [toRun, new, P.elems_empty]
  due := nofun
  suffix := nofun
  put_back := by
    intro _ before p h
    cases before <;> cases h

/-! ## Timers of different ids -/

theorem filter_id {l : List Timer} (hnodup : (l.map Timer.id).Nodup) {t : Timer} (ht : t ∈ l) :
    l.filter (·.id = t.id) = [t] := by
  induction l with
  | nil => cases ht
  | cons a l ih =>
    rw [List.map_cons, List.nodup_cons] at hnodup
    obtain ⟨hnew, hnodup⟩ := hnodup
    rcases List.mem_cons.mp ht with rfl | ht'
    · have hnone : l.filter (·.id = t.id) = [] := by
        refine List.filter_eq_nil_iff.mpr fun b hb heq => hnew ?_
        exact List.mem_map.mpr ⟨b, hb, of_decide_eq_true heq⟩
      rw [List.filter_cons_of_pos (by simp), hnone]
    · have hne : a.id ≠ t.id := fun heq => hnew (List.mem_map.mpr ⟨t, ht', heq.symm⟩)
      rw [List.filter_cons_of_neg (by simpa using hne), ih hnodup ht']

/-- A timer is taken out by its id. -/
theorem perm_cons_filter {l : List Timer} (hnodup : (l.map Timer.id).Nodup) {t : Timer}
    (ht : t ∈ l) : l.Perm (t :: l.filter (·.id ≠ t.id)) := by
  have hperm := (List.filter_append_perm (fun b : Timer => decide (b.id = t.id)) l).symm
  rw [filter_id hnodup ht] at hperm
  refine hperm.trans (List.Perm.of_eq ?_)
  rw [List.singleton_append]
  congr 1
  refine List.filter_congr fun b _ => ?_
  simp

/-- Every timer has an id of its own, not above the last one given. -/
structure Numbered (s : TimerQueue P) : Prop where
  nodup : (s.all.map Timer.id).Nodup
  id_le : ∀ t ∈ s.all, t.id ≤ s.timersCreated

theorem Inv.numbered (h : s.Inv) : s.Numbered := ⟨h.nodup, h.id_le⟩

theorem Numbered.nodup_batch (h : s.Numbered) : (s.batch.map Timer.id).Nodup := by
  have hnd := h.nodup
  rw [all, List.map_append, List.map_append] at hnd
  exact hnd.of_append_left.of_append_right

/-- Timers that go from one place to another, or are gone. -/
theorem Numbered.of_ids (h : s.Numbered) {s' : TimerQueue P}
    (hids : (s'.all.map Timer.id).Subperm (s.all.map Timer.id))
    (hcreated : s'.timersCreated = s.timersCreated) : s'.Numbered where
  nodup := by
    obtain ⟨l, hperm, hsub⟩ := hids
    exact hperm.nodup (hsub.nodup h.nodup)
  id_le := by
    intro t ht
    obtain ⟨t₀, ht₀, heq⟩ := List.mem_map.mp (hids.subset (List.mem_map_of_mem ht))
    rw [hcreated, ← heq]
    exact h.id_le t₀ ht₀

theorem Numbered.addTimer (h : s.Numbered) (when : TimePoint) (interval : TimeInterval) :
    (s.addTimer when interval).Numbered := by
  have hall : (s.addTimer when interval).all
      = s.all ++ [⟨s.timersCreated + 1, when, interval⟩] := by
    unfold all TimerQueue.addTimer batch
    rw [← List.append_assoc]
  constructor
  case nodup =>
    rw [hall, List.map_append]
    refine List.nodup_append.mpr ⟨h.nodup, List.nodup_singleton _, fun a ha b hb hab => ?_⟩
    obtain ⟨t, ht, rfl⟩ := List.mem_map.mp ha
    have hle := h.id_le t ht
    rw [hab, List.mem_singleton.mp hb] at hle
    exact Nat.not_succ_le_self _ hle
  case id_le =>
    rw [hall]
    intro t ht
    rcases List.mem_append.mp ht with hold | hnew
    · exact Nat.le_succ_of_le (h.id_le t hold)
    · rw [List.mem_singleton.mp hnew]
      exact Nat.le_refl _

/-- A timer that was made goes to the heap. -/
theorem Numbered.perm_added (h : s.Numbered) {t : Timer} (ht : t ∈ s.created) :
    (P.elems (P.push s.timers t) ++ s.batch ++ s.created.filter (·.id ≠ t.id)).Perm s.all := by
  have hnodup := h.nodup
  have hcreated : (s.created.map Timer.id).Nodup := by
    rw [all, List.map_append] at hnodup
    exact List.Nodup.of_append_right hnodup
  have hcons := perm_cons_filter hcreated ht
  have hpush := P.elems_push s.timers t
  have hfront := (hpush.append_right s.batch).append_right (s.created.filter (·.id ≠ t.id))
  exact (hfront.trans List.perm_middle.symm).trans (hcons.symm.append_left _)

/-- The expired timers go to the batch. -/
theorem perm_getExpired (hpass : s.pass = none) (now : TimePoint) :
    (P.elems (s.getExpired now).2 ++ (s.getExpired now).1).Perm (P.elems s.timers ++ s.batch) ∧
      ∀ t ∈ (s.getExpired now).1, t.when < now := by
  have hlower : PriorityQueue.Lower Timer.when fun t => decide (t.when < now) := by
    intro a b hle hb
    exact decide_eq_true (lt_of_le_of_lt hle (of_decide_eq_true hb))
  obtain ⟨hperm, hexpired, -⟩ :=
    PriorityQueue.popWhile_spec (P := P) hlower (h := s.timers) (Nat.le_refl _)
  rw [batch_of_none hpass, List.append_nil]
  exact ⟨List.perm_append_comm.trans hperm.symm, fun t ht => of_decide_eq_true (hexpired t ht)⟩

/-- An id in the set is that of exactly one of the timers. -/
theorem Inv.one_timer (h : s.Inv) (hpass : s.pass = none) {id : TimerId}
    (hid : id ∈ s.timerIdSet) : ∃ t, (P.elems s.timers).filter (·.id = id) = [t] := by
  obtain ⟨t, ht, rfl⟩ := h.has_timer id hid
  have hbatch := batch_of_none hpass
  rw [hbatch, List.append_nil] at ht
  have hnodup := h.nodup
  rw [all, hbatch, List.append_nil, List.map_append] at hnodup
  exact ⟨t, filter_id (List.Nodup.of_append_left hnodup) ht⟩

theorem Inv.safe (h : s.Inv) : s.Safe where
  lawful := h.lawful
  put_back := h.put_back
  one_timer hpass _ hid := h.one_timer hpass hid

/-! ## Adding and invalidating -/

/-- After an entry that is not the end of a pass there is nothing to put back. -/
theorem putBack_of_concat {s' : TimerQueue P} {e : TimerEvent} (hlog : s'.log = s.log ++ [e])
    (he : ∀ p, e ≠ .passed p) : s'.PutBack := by
  intro before p heq
  rw [hlog] at heq
  obtain ⟨-, hlast⟩ := List.append_inj' heq rfl
  exact absurd (List.singleton_inj.mp hlast) (he p)

theorem inv_addTimer (h : s.Inv) (when : TimePoint) (interval : TimeInterval) :
    (s.addTimer when interval).Inv := by
  have hnumbered := h.numbered.addTimer when interval
  constructor
  case lawful => exact h.lawful
  case nodup => exact hnumbered.nodup
  case id_le => exact hnumbered.id_le
  case added_le => exact fun id hid => Nat.le_succ_of_le (h.added_le id hid)
  case not_added =>
    intro t ht hadded
    rcases List.mem_append.mp ht with hold | hnew
    · exact h.not_added t hold hadded
    · have hle := h.added_le t.id hadded
      rw [List.mem_singleton.mp hnew] at hle
      exact Nat.not_succ_le_self _ hle
  case added => exact h.added
  case has_timer => exact h.has_timer
  case wanted => exact h.wanted
  case unwanted => exact h.unwanted
  case one_shot => exact h.one_shot
  case due => exact h.due
  case suffix => exact h.suffix
  case put_back => exact h.put_back

/-- The alarm is no part of it. -/
theorem Inv.of_timerfd (h : s.Inv) (timerfd : Option Alarm) : Inv { s with timerfd := timerfd } :=
  { h with }

theorem inv_invalidateTimer (h : s.Inv) (id : TimerId) : (s.invalidateTimer id).Inv := by
  have hadded : ∀ id', Added (s.invalidateTimer id).log id' ↔ Added s.log id' := by
    intro id'
    simp [invalidateTimer, record, added_concat, TimerEvent.adds]
  have hran : ∀ id', Ran (s.invalidateTimer id).log id' ↔ Ran s.log id' := by
    intro id'
    simp [invalidateTimer, record, ran_concat, TimerEvent.runs]
  have hinvalidated : ∀ id', Invalidated (s.invalidateTimer id).log id' ↔
      Invalidated s.log id' ∨ id = id' ∧ Added s.log id' := by
    intro id'
    simp [invalidateTimer, record, invalidated_concat]
  constructor
  case lawful => exact each_concat.mpr ⟨h.lawful, trivial⟩
  case nodup => exact h.nodup
  case id_le => exact h.id_le
  case added_le => exact fun id' hid => h.added_le id' ((hadded id').mp hid)
  case not_added => exact fun t ht hid => h.not_added t ht ((hadded t.id).mp hid)
  case added => exact fun t ht => (hadded t.id).mpr (h.added t ht)
  case has_timer => exact fun id' hid => h.has_timer id' (Finset.mem_of_mem_erase hid)
  case wanted =>
    intro t ht hnot
    rw [hinvalidated]
    -- erasing the id is what makes the timer unwanted
    by_cases hid : id = t.id
    · exact .inr ⟨hid, h.added t ht⟩
    · refine .inl (h.wanted t ht fun hmem => hnot ?_)
      exact Finset.mem_erase.mpr ⟨fun heq => hid heq.symm, hmem⟩
  case unwanted =>
    intro id' hid hmem
    rcases (hinvalidated id').mp hid with hold | ⟨heq, -⟩
    · exact h.unwanted id' hold (Finset.mem_of_mem_erase hmem)
    · exact (Finset.mem_erase.mp hmem).1 heq.symm
  case one_shot => exact fun t ht hone hid => h.one_shot t ht hone ((hran t.id).mp hid)
  case due => exact h.due
  case suffix => exact h.suffix
  case put_back => exact fun _ => putBack_of_concat (s := s) rfl fun _ => nofun

/-- The timer goes from the created ones to the heap. -/
theorem inv_added (h : s.Inv) {t : Timer} (ht : t ∈ s.created) :
    Inv { s with
      timers := P.push s.timers t
      timerIdSet := Insert.insert t.id s.timerIdSet
      created := s.created.filter (·.id ≠ t.id)
      log := s.log ++ [.added t] } := by
  have hpush := P.elems_push s.timers t
  have hperm := h.numbered.perm_added ht
  have hmem : ∀ t' ∈ P.elems (P.push s.timers t) ++ s.batch,
      t' = t ∨ t' ∈ P.elems s.timers ++ s.batch := by
    intro t' ht'
    exact List.mem_cons.mp ((hpush.append_right s.batch).subset ht')
  constructor
  case lawful => exact each_concat.mpr ⟨h.lawful, trivial⟩
  case nodup => exact (hperm.map Timer.id).symm.nodup h.nodup
  case id_le => exact fun t' ht' => h.id_le t' (hperm.subset ht')
  case added_le =>
    intro id hid
    rcases added_concat.mp hid with hold | heq
    · exact h.added_le id hold
    · rw [← show t.id = id from heq]
      exact h.id_le t (List.mem_append_right _ ht)
  case not_added =>
    intro t' ht' hid
    obtain ⟨hold, hne⟩ := List.mem_filter.mp ht'
    rcases added_concat.mp hid with hadded | heq
    · exact h.not_added t' hold hadded
    · exact of_decide_eq_true hne (show t.id = t'.id from heq).symm
  case added =>
    intro t' ht'
    rcases hmem t' ht' with rfl | hold
    · exact added_concat.mpr (.inr rfl)
    · exact added_concat.mpr (.inl (h.added t' hold))
  case has_timer =>
    -- the id is inserted together with its timer
    intro id hid
    rcases Finset.mem_insert.mp hid with rfl | hold
    · exact ⟨t, List.mem_append_left _ (hpush.symm.subset List.mem_cons_self), rfl⟩
    · obtain ⟨t', ht', heq⟩ := h.has_timer id hold
      exact ⟨t', (hpush.append_right s.batch).symm.subset (List.mem_cons_of_mem t ht'), heq⟩
  case wanted =>
    intro t' ht' hnot
    obtain ⟨hne, hnot'⟩ := not_or.mp fun hin => hnot (Finset.mem_insert.mpr hin)
    rcases hmem t' ht' with rfl | hold
    · exact absurd rfl hne
    · exact invalidated_concat.mpr (.inl (h.wanted t' hold hnot'))
  case unwanted =>
    -- an id cannot have been invalidated before it was added
    intro id hid hin
    rcases invalidated_concat.mp hid with hold | ⟨heq, -⟩
    · rcases Finset.mem_insert.mp hin with rfl | hin'
      · exact h.not_added t ht hold.added
      · exact h.unwanted id hold hin'
    · cases heq
  case one_shot =>
    -- nor can it have run
    intro t' ht' hone hid
    rcases ran_concat.mp hid with hran | hfalse
    · rcases List.mem_cons.mp ((hpush.append_right s.toRun).subset ht') with rfl | hold
      · exact h.not_added t' ht (added_of_ran h.lawful hran)
      · exact h.one_shot t' hold hone hran
    · cases hfalse
  case due => exact h.due
  case suffix => exact h.suffix
  case put_back => exact fun _ => putBack_of_concat (s := s) rfl fun _ => nofun

theorem inv_addTimerInLoop (h : s.Inv) (id : TimerId) (clock : TimePoint) :
    (s.step (.addTimerInLoop id clock)).Inv := by
  simp only [step]
  cases hfind : s.created.find? (·.id = id) with
  | none => exact h
  | some t =>
    have hid : t.id = id := by simpa using List.find?_some hfind
    have hadded := inv_added h (List.mem_of_find?_eq_some hfind)
    rw [hid] at hadded
    simp only [addTimerInLoop, hid]
    split
    · exact hadded.of_timerfd _
    · exact hadded

/-! ## A pass -/

/-- The expired timers go from the heap to the batch. -/
theorem inv_handleRead (h : s.Inv) (now : TimePoint) : (s.step (.handleRead now)).Inv := by
  simp only [step]
  cases hpass : s.pass with
  | some p => exact h
  | none =>
    -- the batch is taken from the heap: the same timers are held, elsewhere
    have hbatch := batch_of_none hpass
    obtain ⟨hheld, hexpired⟩ := perm_getExpired hpass now
    constructor
    case lawful => exact h.lawful
    case nodup => exact ((hheld.append_right s.created).map Timer.id).symm.nodup h.nodup
    case id_le => exact fun t ht => h.id_le t ((hheld.append_right s.created).subset ht)
    case added_le => exact h.added_le
    case not_added => exact h.not_added
    case added => exact fun t ht => h.added t (hheld.subset ht)
    case has_timer =>
      intro id hid
      obtain ⟨t, ht, heq⟩ := h.has_timer id hid
      exact ⟨t, hheld.symm.subset ht, heq⟩
    case wanted => exact fun t ht => h.wanted t (hheld.subset ht)
    case unwanted => exact h.unwanted
    case one_shot =>
      intro t ht
      have hmem := hheld.subset ht
      rw [hbatch, List.append_nil] at hmem
      exact h.one_shot t (List.mem_append_left _ hmem)
    case due =>
      intro p hp t ht
      obtain rfl := Option.some.inj hp
      exact hexpired t ht
    case suffix =>
      intro p hp
      obtain rfl := Option.some.inj hp
      exact List.suffix_rfl
    case put_back => exact nofun

/-- The pass goes on to the next timer. -/
theorem inv_next (h : s.Inv) {now : TimePoint} {expired toRun : List Timer} {t : Timer}
    (hpass : s.pass = some ⟨now, expired, t :: toRun⟩) :
    Inv { s with pass := some ⟨now, expired, toRun⟩ } := by
  have hbatch : s.batch = expired := batch_of_some hpass
  have htoRun : s.toRun = t :: toRun := toRun_of_some hpass
  have hall := h.nodup
  rw [all, hbatch] at hall
  -- the timer leaves the ones to come, but it stays in the batch
  constructor
  case lawful => exact h.lawful
  case nodup => exact hall
  case id_le =>
    intro t' ht'
    refine h.id_le t' ?_
    rw [all, hbatch]
    exact ht'
  case added_le => exact h.added_le
  case not_added => exact h.not_added
  case added => exact fun t' ht' => h.added t' (hbatch ▸ ht')
  case has_timer =>
    have hhas := h.has_timer
    rw [hbatch] at hhas
    exact hhas
  case wanted => exact fun t' ht' => h.wanted t' (hbatch ▸ ht')
  case unwanted => exact h.unwanted
  case one_shot =>
    intro t' ht'
    refine h.one_shot t' ?_
    rw [htoRun]
    exact List.mem_append.mpr ((List.mem_append.mp ht').imp_right (List.mem_cons_of_mem t))
  case due =>
    intro p hp
    obtain rfl := Option.some.inj hp
    exact h.due ⟨now, expired, t :: toRun⟩ hpass
  case suffix =>
    intro p hp
    obtain rfl := Option.some.inj hp
    exact (List.suffix_cons t toRun).trans (h.suffix _ hpass)
  case put_back => exact nofun

/-- The next timer of the batch runs when its id is still in the set. -/
theorem inv_callback (h : s.Inv) : (s.step .callback).Inv := by
  simp only [step]
  split
  case h_2 => exact h
  case h_1 now expired t toRun hpass =>
    have hnext := inv_next h hpass
    split
    case isFalse => exact hnext
    case isTrue hid =>
      have htoRun : s.toRun = t :: toRun := toRun_of_some hpass
      have hbatch : s.batch = expired := batch_of_some hpass
      have hexpired : t ∈ expired := (h.suffix _ hpass).subset List.mem_cons_self
      have hheld : t ∈ P.elems s.timers ++ s.batch := by
        rw [hbatch]
        exact List.mem_append_right _ hexpired
      -- it was added, is due and wanted, and if it does not repeat it has not run
      have hlawful : Lawful s.log (.ran t now) := by
        refine ⟨h.added t hheld, h.due _ hpass t hexpired, fun hin => h.unwanted _ hin hid, ?_⟩
        refine h.one_shot t ?_
        rw [htoRun]
        exact List.mem_append_right _ List.mem_cons_self
      have hadded : ∀ id, Added (s.log ++ [.ran t now]) id ↔ Added s.log id := by
        intro id
        simp [added_concat, TimerEvent.adds]
      have hinvalidated : ∀ id, Invalidated (s.log ++ [.ran t now]) id ↔ Invalidated s.log id := by
        intro id
        simp [invalidated_concat]
      constructor
      case lawful => exact each_concat.mpr ⟨h.lawful, hlawful⟩
      case nodup => exact hnext.nodup
      case id_le => exact hnext.id_le
      case added_le => exact fun id hin => h.added_le id ((hadded id).mp hin)
      case not_added => exact fun t' ht' hin => h.not_added t' ht' ((hadded _).mp hin)
      case added => exact fun t' ht' => (hadded _).mpr (hnext.added t' ht')
      case has_timer => exact hnext.has_timer
      case wanted => exact fun t' ht' hnot => (hinvalidated _).mpr (hnext.wanted t' ht' hnot)
      case unwanted => exact fun id hin => h.unwanted id ((hinvalidated id).mp hin)
      case one_shot =>
        intro t' ht' hone hin
        rcases ran_concat.mp hin with hold | heq
        · exact hnext.one_shot t' ht' hone hold
        · -- another timer of this id would be one that is still to come
          have hnodup : ((P.elems s.timers ++ (t :: toRun)).map Timer.id).Nodup := by
            have hsub : (P.elems s.timers ++ (t :: toRun)).Sublist s.all := by
              rw [all, hbatch]
              exact ((h.suffix _ hpass).sublist.append_left _).trans
                (List.sublist_append_left _ _)
            exact (hsub.map Timer.id).nodup h.nodup
          have hperm : (P.elems s.timers ++ (t :: toRun)).Perm
              (t :: (P.elems s.timers ++ toRun)) := List.perm_middle
          have hcons := (hperm.map Timer.id).nodup hnodup
          rw [List.map_cons, List.nodup_cons] at hcons
          refine hcons.1 (List.mem_map.mpr ⟨t', ht', (show t.id = t'.id from heq).symm⟩)
      case due => exact hnext.due
      case suffix => exact hnext.suffix
      case put_back => exact nofun

/-- The timers of a batch that `reset` puts back. -/
def backTimers (s : TimerQueue P) (now clock : TimePoint) (l : List Timer) : List Timer :=
  (l.filter fun t => t.isRepeat && t.id ∈ s.timerIdSet).map (·.restart now clock)

/-- What the loop of `reset` does. -/
structure Reset (now clock : TimePoint) (l : List Timer) (s s' : TimerQueue P) : Prop where
  timers : (P.elems s'.timers).Perm (s.backTimers now clock l ++ P.elems s.timers)
  timerIdSet : ∀ id, id ∈ s'.timerIdSet ↔
    id ∈ s.timerIdSet ∧ ∀ t ∈ l, t.id = id → t.isRepeat = true
  log : s'.log = s.log ++ (s.backTimers now clock l).map .reinserted
  created : s'.created = s.created
  timersCreated : s'.timersCreated = s.timersCreated
  timerfd : s'.timerfd = s.timerfd

/-- For the other timers of the batch the set looks the same. -/
theorem backTimers_congr {s' : TimerQueue P} {now clock : TimePoint} {l : List Timer}
    (h : ∀ t ∈ l, t.id ∈ s'.timerIdSet ↔ t.id ∈ s.timerIdSet) :
    s'.backTimers now clock l = s.backTimers now clock l := by
  unfold backTimers
  congr 1
  refine List.filter_congr fun t ht => ?_
  simp only [h t ht]

theorem resetTimers_spec (now clock : TimePoint) {l : List Timer}
    (hnodup : (l.map Timer.id).Nodup) (s : TimerQueue P) :
    Reset now clock l s (resetTimers now clock l s) := by
  induction l generalizing s with
  | nil =>
    refine ⟨List.Perm.refl _, fun id => ?_, ?_, rfl, rfl, rfl⟩
    · simp [resetTimers]
    · simp [resetTimers, backTimers]
  | cons t l ih =>
    rw [List.map_cons, List.nodup_cons] at hnodup
    obtain ⟨hnew, hnodup⟩ := hnodup
    have hne : ∀ t' ∈ l, t'.id ≠ t.id := fun t' ht' heq => hnew (List.mem_map.mpr ⟨t', ht', heq⟩)
    simp only [resetTimers]
    split
    case isFalse hid =>
      -- no longer wanted: it is dropped
      have hr := ih hnodup s
      have hback : s.backTimers now clock (t :: l) = s.backTimers now clock l := by
        simp [backTimers, hid]
      refine ⟨hback ▸ hr.timers, fun id => ?_, hback ▸ hr.log, hr.created, hr.timersCreated,
        hr.timerfd⟩
      rw [hr.timerIdSet id]
      refine and_congr_right fun hin => ?_
      have htid : t.id ≠ id := fun heq => hid (heq ▸ hin)
      simp [htid]
    case isTrue hid =>
      split
      case isTrue hrepeat =>
        have hr :=
          ih hnodup ((s.insert (t.restart now clock)).record (.reinserted (t.restart now clock)))
        have hsame : ((s.insert (t.restart now clock)).record
            (.reinserted (t.restart now clock))).backTimers now clock l
              = s.backTimers now clock l := backTimers_congr fun _ _ => Iff.rfl
        have hback : s.backTimers now clock (t :: l)
            = t.restart now clock :: s.backTimers now clock l := by
          simp [backTimers, hid, hrepeat]
        refine ⟨?_, fun id => ?_, ?_, hr.created, hr.timersCreated, hr.timerfd⟩
        · have htimers := hr.timers
          rw [hsame] at htimers
          rw [hback]
          refine htimers.trans (((P.elems_push _ _).append_left _).trans ?_)
          exact List.perm_middle
        · rw [hr.timerIdSet id]
          refine and_congr_right fun _ => ?_
          simp [hrepeat]
        · rw [hback, hr.log, hsame]
          exact List.append_assoc _ _ _
      case isFalse hone =>
        have hr := ih hnodup { s with timerIdSet := s.timerIdSet.erase t.id }
        have hback : s.backTimers now clock (t :: l) = s.backTimers now clock l := by
          simp [backTimers, hone]
        have hcongr : ∀ t' ∈ l, t'.id ∈ s.timerIdSet.erase t.id ↔ t'.id ∈ s.timerIdSet :=
          fun t' ht' => Finset.mem_erase.trans (and_iff_right (hne t' ht'))
        have hsame : backTimers { s with timerIdSet := s.timerIdSet.erase t.id } now clock l
            = s.backTimers now clock l := backTimers_congr hcongr
        rw [← hsame] at hback
        refine ⟨hback ▸ hr.timers, fun id => ?_, hback ▸ hr.log, hr.created, hr.timersCreated,
          hr.timerfd⟩
        rw [hr.timerIdSet id, Finset.mem_erase]
        constructor
        · rintro ⟨⟨hneq, hin⟩, hall⟩
          refine ⟨hin, fun t' ht' heq => ?_⟩
          rcases List.mem_cons.mp ht' with rfl | ht''
          · exact absurd heq.symm hneq
          · exact hall t' ht'' heq
        · rintro ⟨hin, hall⟩
          refine ⟨⟨fun heq => hone (hall t List.mem_cons_self heq.symm), hin⟩, ?_⟩
          exact fun t' ht' => hall t' (List.mem_cons_of_mem t ht')

theorem mem_backTimers {now clock : TimePoint} {l : List Timer} {t : Timer} :
    t ∈ s.backTimers now clock l ↔
      ∃ t₀ ∈ l, t₀.isRepeat = true ∧ t₀.id ∈ s.timerIdSet ∧ t₀.restart now clock = t := by
  simp [backTimers, and_assoc]

/-- A timer that is put back has the id it had. -/
theorem map_id_backTimers (now clock : TimePoint) (l : List Timer) :
    ((s.backTimers now clock l).map Timer.id).Sublist (l.map Timer.id) := by
  have heq : (s.backTimers now clock l).map Timer.id
      = (l.filter fun t => t.isRepeat && t.id ∈ s.timerIdSet).map Timer.id := by
    rw [backTimers, List.map_map]
    rfl
  rw [heq]
  exact List.filter_sublist.map Timer.id

/-- The timers that are put back had a place in the batch. -/
theorem Reset.numbered {now clock : TimePoint} {expired : List Timer} {s' : TimerQueue P}
    (hr : Reset now clock expired s s') (h : s.Numbered) (hbatch : s.batch = expired) :
    Numbered { s' with pass := none } := by
  refine h.of_ids ?_ hr.timersCreated
  have hsub : ((s.backTimers now clock expired ++ P.elems s.timers ++ s.created).map
      Timer.id).Sublist ((expired ++ P.elems s.timers ++ s.created).map Timer.id) := by
    simp only [List.map_append]
    exact ((map_id_backTimers now clock expired).append_right _).append_right _
  have hperm : (expired ++ P.elems s.timers ++ s.created).Perm s.all := by
    rw [all, hbatch]
    exact List.perm_append_comm.append_right _
  have hnow : (all { s' with pass := none }).Perm
      (s.backTimers now clock expired ++ P.elems s.timers ++ s.created) := by
    rw [all, batch_of_none rfl, List.append_nil]
    exact hr.created ▸ hr.timers.append_right _
  exact ((hnow.map Timer.id).subperm_right.mpr (hsub.subperm)).trans (hperm.map Timer.id).subperm

/-- Two timers of one id are the same. -/
theorem Inv.eq_of_id (h : s.Inv) {t t' : Timer} (ht : t ∈ s.all) (ht' : t' ∈ s.all)
    (hid : t.id = t'.id) : t = t' :=
  List.inj_on_of_nodup_map h.nodup ht ht' hid

theorem armTop_eq (s : TimerQueue P) (clock : TimePoint) :
    ∃ timerfd, s.armTop clock = { s with timerfd := timerfd } := by
  unfold armTop
  split
  · exact ⟨s.timerfd, rfl⟩
  · exact ⟨_, rfl⟩

/-- The end of a pass. -/
theorem inv_reset (h : s.Inv) {now clock : TimePoint} {expired : List Timer}
    (hpass : s.pass = some ⟨now, expired, []⟩) {s' : TimerQueue P}
    (hr : Reset now clock expired s s') (timerfd : Option Alarm) :
    Inv { s' with
      timerfd := timerfd, pass := none, log := s'.log ++ [.passed ⟨now, expired, []⟩] } := by
  have hbatch : s.batch = expired := batch_of_some hpass
  have hall : s.all = P.elems s.timers ++ expired ++ s.created := by rw [all, hbatch]
  have hin_all : ∀ t ∈ P.elems s.timers ++ expired, t ∈ s.all := by
    intro t ht
    rw [hall]
    exact List.mem_append_left _ ht
  have hadded : ∀ id, Added (s'.log ++ [.passed ⟨now, expired, []⟩]) id ↔ Added s.log id := by
    intro id
    rw [added_concat, hr.log, (log_reinserted _).1]
    exact or_iff_left fun hno => hno
  have hran : ∀ id, Ran (s'.log ++ [.passed ⟨now, expired, []⟩]) id ↔ Ran s.log id := by
    intro id
    rw [ran_concat, hr.log, (log_reinserted _).2.1]
    exact or_iff_left fun hno => hno
  have hinvalidated : ∀ id,
      Invalidated (s'.log ++ [.passed ⟨now, expired, []⟩]) id ↔ Invalidated s.log id := by
    intro id
    rw [invalidated_concat, hr.log, (log_reinserted _).2.2]
    exact or_iff_left fun hne => nomatch hne.1
  -- what is in the heap now: the timers put back, and those that were there
  have hheap : ∀ t, t ∈ P.elems s'.timers ↔
      t ∈ s.backTimers now clock expired ∨ t ∈ P.elems s.timers :=
    fun t => hr.timers.mem_iff.trans List.mem_append
  have hold : ∀ t ∈ P.elems s'.timers, ∃ t₀ ∈ P.elems s.timers ++ expired, t₀.id = t.id := by
    intro t ht
    rcases (hheap t).mp ht with hback | hstays
    · obtain ⟨t₀, ht₀, -, -, rfl⟩ := mem_backTimers.mp hback
      exact ⟨t₀, List.mem_append_right _ ht₀, rfl⟩
    · exact ⟨t, List.mem_append_left _ hstays, rfl⟩
  have hnumbered := hr.numbered h.numbered hbatch
  have hnodup : ((P.elems s'.timers ++ s.created).map Timer.id).Nodup := by
    have hnd := hnumbered.nodup
    rw [all, batch_of_none rfl, List.append_nil] at hnd
    exact hr.created ▸ hnd
  have hwanted : ∀ t ∈ expired, t.isRepeat = true → t.id ∈ s.timerIdSet →
      t.restart now clock ∈ P.elems s'.timers := fun t ht hrepeat hid =>
    (hheap _).mpr (.inl (mem_backTimers.mpr ⟨t, ht, hrepeat, hid, rfl⟩))
  constructor
  case lawful =>
    refine each_concat.mpr ⟨?_, trivial⟩
    rw [hr.log]
    refine each_reinserted h.lawful fun t ht hin => ?_
    obtain ⟨t₀, -, -, hid, rfl⟩ := mem_backTimers.mp ht
    exact h.unwanted _ hin hid
  case nodup => exact hnumbered.nodup
  case id_le => exact hnumbered.id_le
  case added_le =>
    intro id hin
    rw [show s'.timersCreated = _ from hr.timersCreated]
    exact h.added_le id ((hadded id).mp hin)
  case not_added =>
    intro t ht hin
    exact h.not_added t (hr.created ▸ ht) ((hadded _).mp hin)
  case added =>
    intro t ht
    simp only [batch, List.append_nil] at ht
    obtain ⟨t₀, ht₀, hid⟩ := hold t ht
    exact (hadded _).mpr (hid ▸ h.added t₀ (hbatch ▸ ht₀))
  case has_timer =>
    intro id hid
    simp only [batch, List.append_nil]
    obtain ⟨hin, hrepeats⟩ := (hr.timerIdSet id).mp hid
    obtain ⟨t, ht, rfl⟩ := h.has_timer id hin
    rw [hbatch] at ht
    rcases List.mem_append.mp ht with hstays | hexpired
    · exact ⟨t, (hheap t).mpr (.inr hstays), rfl⟩
    · exact ⟨_, hwanted t hexpired (hrepeats t hexpired rfl) hin, rfl⟩
  case wanted =>
    intro t ht hnot
    simp only [batch, List.append_nil] at ht
    refine (hinvalidated _).mpr ?_
    rcases (hheap t).mp ht with hback | hstays
    · obtain ⟨t₀, ht₀, hrepeat, hid, rfl⟩ := mem_backTimers.mp hback
      refine absurd ((hr.timerIdSet _).mpr ⟨hid, fun t' ht' heq => ?_⟩) hnot
      rw [h.eq_of_id (hin_all t' (List.mem_append_right _ ht'))
        (hin_all t₀ (List.mem_append_right _ ht₀)) heq]
      exact hrepeat
    · refine h.wanted t (List.mem_append_left _ hstays) fun hid => hnot ?_
      refine (hr.timerIdSet _).mpr ⟨hid, fun t' ht' heq => ?_⟩
      -- an expired timer has another id than one that stays
      exfalso
      have hdisjoint : (P.elems s.timers ++ expired).map Timer.id |>.Nodup := by
        have hnd := h.nodup
        rw [hall, List.map_append] at hnd
        exact hnd.of_append_left
      rw [List.map_append] at hdisjoint
      exact List.disjoint_of_nodup_append hdisjoint (List.mem_map_of_mem hstays)
        (heq ▸ List.mem_map_of_mem ht')
  case unwanted =>
    intro id hin hid
    exact h.unwanted id ((hinvalidated id).mp hin) ((hr.timerIdSet id).mp hid).1
  case one_shot =>
    intro t ht hone hin
    simp only [toRun, List.append_nil] at ht
    rcases (hheap t).mp ht with hback | hstays
    · obtain ⟨t₀, -, hrepeat, -, rfl⟩ := mem_backTimers.mp hback
      rw [show (t₀.restart now clock).isRepeat = t₀.isRepeat from rfl, hrepeat] at hone
      cases hone
    · exact h.one_shot t (List.mem_append_left _ hstays) hone ((hran _).mp hin)
  case due => exact nofun
  case suffix => exact nofun
  case put_back =>
    intro _ before p heq t ht hrepeat hnot
    obtain ⟨-, hlast⟩ := List.append_inj' heq rfl
    obtain rfl := TimerEvent.passed.inj (List.singleton_inj.mp hlast)
    have hid : t.id ∈ s.timerIdSet := by
      by_contra hout
      refine hnot ((hinvalidated _).mpr (h.wanted t ?_ hout))
      rw [hbatch]
      exact List.mem_append_right _ ht
    have hback := hwanted t ht hrepeat hid
    have hrestart : t.restart now clock = { t with when := now + t.interval * 1000 } := by
      rw [Timer.restart, hrepeat]
      rfl
    rw [List.map_append] at hnodup
    rw [← hrestart]
    exact filter_id hnodup.of_append_left hback

theorem inv_resetExpired (h : s.Inv) (clock : TimePoint) : (s.step (.resetExpired clock)).Inv := by
  simp only [step]
  split
  case h_2 => exact h
  case h_1 now expired hpass =>
    have hnodup := h.numbered.nodup_batch
    rw [batch_of_some hpass] at hnodup
    have hr := resetTimers_spec now clock hnodup s
    obtain ⟨timerfd, harm⟩ := armTop_eq (resetTimers now clock expired s) clock
    rw [harm]
    exact inv_reset h hpass hr timerfd

theorem inv_step (s : TimerQueue P) (op : Op) (h : s.Inv) : (s.step op).Inv := by
  cases op with
  | addTimer when interval => exact inv_addTimer h when interval
  | addTimerInLoop id clock => exact inv_addTimerInLoop h id clock
  | invalidateTimer id => exact inv_invalidateTimer h id
  | handleRead now => exact inv_handleRead h now
  | callback => exact inv_callback h
  | resetExpired clock => exact inv_resetExpired h clock
  | reset clock =>
    obtain ⟨timerfd, harm⟩ := armTop_eq { s with timerfd := none } clock
    simp only [step]
    rw [harm]
    exact h.of_timerfd timerfd

/-- **Timer queue safety.** In every sequence of operations, whatever the callbacks add and
invalidate in the middle of a pass. -/
theorem always_safe (P : PriorityQueue.{0, 0, u} Timer.when) (ops : List Op) :
    Runs.Always step Safe (new P) ops :=
  (Runs.always_of_step inv_step inv_new ops).mono fun _ h => h.safe

/-- The first callback of a batch invalidates the second timer, which then does not run. -/
example :
    let s := Runs.run step (new (PriorityQueue.ofList Timer.when))
      [.addTimer 5 0, .addTimer 6 10, .addTimerInLoop 1 0, .addTimerInLoop 2 0, .handleRead 7,
        .callback, .invalidateTimer 2, .callback, .resetExpired 7]
    Ran s.log 1 ∧ s.log.length = 5 := by
  refine ⟨⟨.ran ⟨1, 5, 0⟩ 7, ?_, rfl⟩, ?_⟩ <;> decide +kernel

end TimerQueue

end XiaoNet
