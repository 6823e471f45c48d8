import XiaoNet.Net.EpollPoller

/-!
# What the kernel watches

- `Mirrors`: the set in the kernel, `index_` and `events_` of every channel agree.
- `Known`: the set, `index_` and the bookkeeping of the assertions, kept by every operation.
- `Linked`: this and the events, kept by the operations that have something to tell the
  poller (`Keeps`).
- `mirrors_iff_keeps`: `Mirrors` holds along a run exactly when every operation is one of
  them. `disableAll` is none of them while the channel has events, because it does not call
  `update`; what takes events away is none while the channel has no events, because
  `updateChannel` then adds it with an empty mask.
-/

namespace XiaoNet

universe u

namespace EpollPoller

open Channel

variable {ι : Type u} [DecidableEq ι] {fd : ι → Int}

/-- The set in the kernel has an entry for the channel. -/
def Registered (fd : ι → Int) (s : EpollPoller ι) (ch : ι) : Prop :=
  ∃ event, s.epoll (fd ch) = some event ∧ event.ptr = ch

/-- A channel is registered exactly when it has events, then with these, and `index_` says
so. -/
structure Mirrors (fd : ι → Int) (s : EpollPoller ι) : Prop where
  events : ∀ ch, Registered fd s ch ↔ (s.channel ch).events ≠ kNoneEvent
  mask : ∀ ch event, s.epoll (fd ch) = some event → event.ptr = ch →
    event.events = (s.channel ch).events
  index : ∀ ch, s.index ch = .kAdded ↔ Registered fd s ch

/-- The set, the indices and `channels_`. -/
structure Linked (fd : ι → Int) (s : EpollPoller ι) : Prop where
  added : ∀ ch, s.index ch = .kAdded ↔ (s.channel ch).events ≠ kNoneEvent
  known : ∀ ch, s.index ch ≠ .kNew ↔ s.channels (fd ch) = some ch
  entry : ∀ ch, s.index ch = .kAdded → s.epoll (fd ch) = some ⟨(s.channel ch).events, ch⟩
  owner : ∀ f event, s.epoll f = some event → fd event.ptr = f ∧ s.index event.ptr = .kAdded

variable {s : EpollPoller ι}

omit [DecidableEq ι] in
theorem Linked.registered_iff (h : Linked fd s) (ch : ι) :
    Registered fd s ch ↔ s.index ch = .kAdded := by
  constructor
  · rintro ⟨event, hevent, rfl⟩
    exact (h.owner _ event hevent).2
  · intro hadded
    exact ⟨_, h.entry ch hadded, rfl⟩

omit [DecidableEq ι] in
theorem Linked.mirrors (h : Linked fd s) : Mirrors fd s where
  events := fun ch => (h.registered_iff ch).trans (h.added ch)
  mask := fun ch event hevent hptr => by
    subst hptr
    have hadded := (h.owner _ event hevent).2
    rw [h.entry _ hadded, Option.some.injEq] at hevent
    rw [← hevent]
  index := fun ch => (h.registered_iff ch).symm

omit [DecidableEq ι] in
theorem linked_new : Linked fd (new : EpollPoller ι) where
  added := fun _ => ⟨fun h => (by cases h), fun h => absurd rfl h⟩
  known := fun _ => ⟨fun h => absurd rfl h, fun h => (by cases h)⟩
  entry := fun _ h => by cases h
  owner := fun _ _ h => by cases h

/-- What holds whatever the events are. -/
structure Known (fd : ι → Int) (s : EpollPoller ι) : Prop where
  known : ∀ ch, s.index ch ≠ .kNew ↔ s.channels (fd ch) = some ch
  entry : ∀ ch, s.index ch = .kAdded → ∃ events, s.epoll (fd ch) = some ⟨events, ch⟩
  owner : ∀ f event, s.epoll f = some event → fd event.ptr = f ∧ s.index event.ptr = .kAdded

omit [DecidableEq ι] in
theorem Linked.toKnown (h : Linked fd s) : Known fd s :=
  ⟨h.known, fun ch hadded => ⟨_, h.entry ch hadded⟩, h.owner⟩

/-- The state in which channel `ch` has the given events and index, and the poller knows. -/
def settled (fd : ι → Int) (s : EpollPoller ι) (ch : ι) (events : BitVec 32) (index : Index) :
    EpollPoller ι where
  channel := Function.update s.channel ch ⟨events⟩
  index := Function.update s.index ch index
  channels := Function.update s.channels (fd ch) (if index = .kNew then none else some ch)
  epoll := Function.update s.epoll (fd ch)
    (if index = .kAdded then some ⟨events, ch⟩ else none)
  failed := s.failed

/-- No other channel has the descriptor. -/
def Owns (fd : ι → Int) (s : EpollPoller ι) (ch : ι) : Prop :=
  s.channels (fd ch) = none ∨ s.channels (fd ch) = some ch

omit [DecidableEq ι] in
theorem Known.owns_iff (h : Known fd s) (ch : ι) :
    Owns fd s ch ↔ (s.index ch = .kNew → s.channels (fd ch) = none) := by
  by_cases hnew : s.index ch = .kNew
  · have hne : s.channels (fd ch) ≠ some ch := fun hch => (h.known ch).mpr hch hnew
    exact ⟨fun ho _ => ho.resolve_right hne, fun ho => .inl (ho hnew)⟩
  · exact ⟨fun _ hn => absurd hn hnew, fun _ => .inr ((h.known ch).mp hnew)⟩

omit [DecidableEq ι] in
/-- The other channels are not affected. -/
theorem Known.fd_ne (h : Known fd s) {ch ch' : ι} (howns : Owns fd s ch) (hne : ch' ≠ ch)
    (hknown : s.index ch' ≠ .kNew) : fd ch' ≠ fd ch := by
  intro hfd
  have hch := (h.known ch').mp hknown
  rw [hfd] at hch
  rcases howns with hnone | hsome
  · rw [hnone] at hch
    cases hch
  · rw [hsome] at hch
    exact hne (Option.some.inj hch).symm

omit [DecidableEq ι] in
theorem Known.fd_ne_of_added (h : Known fd s) {ch ch' : ι} (howns : Owns fd s ch)
    (hne : ch' ≠ ch) (hadded : s.index ch' = .kAdded) : fd ch' ≠ fd ch := by
  refine h.fd_ne howns hne ?_
  rw [hadded]
  simp

theorem Known.settle (h : Known fd s) {ch : ι} (howns : Owns fd s ch) (events : BitVec 32)
    (index : Index) : Known fd (settled fd s ch events index) where
  known := fun ch' => by
    show Function.update s.index ch index ch' ≠ _ ↔ Function.update s.channels (fd ch) _ (fd ch') = _
    by_cases hch : ch' = ch
    · subst hch
      rw [Function.update_self, Function.update_self]
      cases index <;> simp
    · rw [Function.update_of_ne hch]
      by_cases hfd : fd ch' = fd ch
      · -- the descriptor is that of `ch` alone
        rw [hfd, Function.update_self]
        refine ⟨fun hk => absurd hfd (h.fd_ne howns hch hk), fun hsome => ?_⟩
        split at hsome
        · cases hsome
        · exact absurd (Option.some.inj hsome).symm hch
      · rw [Function.update_of_ne hfd]
        exact h.known ch'
  entry := fun ch' hadded => by
    change Function.update s.index ch index ch' = _ at hadded
    show ∃ events', Function.update s.epoll (fd ch) _ (fd ch') = some ⟨events', ch'⟩
    by_cases hch : ch' = ch
    · subst hch
      rw [Function.update_self] at hadded
      exact ⟨events, by rw [Function.update_self, if_pos hadded]⟩
    · rw [Function.update_of_ne hch] at hadded
      rw [Function.update_of_ne (h.fd_ne_of_added howns hch hadded)]
      exact h.entry ch' hadded
  owner := fun f event hevent => by
    change Function.update s.epoll (fd ch) _ f = _ at hevent
    show _ ∧ Function.update s.index ch index event.ptr = _
    by_cases hf : f = fd ch
    · subst hf
      rw [Function.update_self] at hevent
      split at hevent
      · rename_i hadded
        cases hevent
        exact ⟨rfl, (Function.update_self ch index s.index).trans hadded⟩
      · cases hevent
    · rw [Function.update_of_ne hf] at hevent
      obtain ⟨hfd, hadded⟩ := h.owner f event hevent
      have hptr : event.ptr ≠ ch := fun hptr => hf (by rw [← hfd, hptr])
      exact ⟨hfd, (Function.update_of_ne hptr _ _).trans hadded⟩

/-- A channel that is not registered leaves its descriptor free in the set. -/
theorem Known.epoll_none (h : Known fd s) {ch : ι} (howns : Owns fd s ch)
    (hindex : s.index ch ≠ .kAdded) : s.epoll (fd ch) = none := by
  cases hevent : s.epoll (fd ch) with
  | none => rfl
  | some event =>
    obtain ⟨hfd, hadded⟩ := h.owner _ event hevent
    by_cases hptr : event.ptr = ch
    · rw [hptr] at hadded
      exact absurd hadded hindex
    · exact absurd hfd (h.fd_ne_of_added howns hptr hadded)

/-! ## What an operation does -/

/-- `updateChannel` gets past its assertions. -/
def Passes (fd : ι → Int) (s : EpollPoller ι) (ch : ι) : Prop :=
  0 ≤ fd ch ∧ (s.index ch = .kNew → s.channels (fd ch) = none)

instance (ch : ι) : Decidable (Passes fd s ch) := inferInstanceAs (Decidable (_ ∧ _))

/-- The index of a channel after `updateChannel`. -/
def nextIndex (index : Index) (events : BitVec 32) : Index :=
  if index = .kAdded ∧ events = kNoneEvent then .kDeleted else .kAdded

/-- **`updateChannel`**, when the channel has new events. -/
theorem Known.updateChannel_eq (h : Known fd s) (ch : ι) (events : BitVec 32) :
    (s.setChannel ch ⟨events⟩).updateChannel fd ch
      = if Passes fd s ch then some (settled fd s ch events (nextIndex (s.index ch) events))
        else none := by
  -- by `index_`: each of its three values has its own assertion and its own call of `epoll_ctl`
  by_cases hpos : 0 ≤ fd ch
  · cases hindex : s.index ch with
    | kNew =>
      by_cases hnone : s.channels (fd ch) = none
      · have hfree := h.epoll_none (.inl hnone) (by rw [hindex]; simp)
        simp [updateChannel, setChannel, setIndex, update, epollCtl, settled, nextIndex, Passes,
          hindex, hpos, hnone, hfree]
      · simp [updateChannel, setChannel, Passes, hindex, hpos, hnone]
    | kDeleted =>
      have hknown := (h.known ch).mp (by rw [hindex]; simp)
      have hfree := h.epoll_none (.inr hknown) (by rw [hindex]; simp)
      simp [updateChannel, setChannel, setIndex, update, epollCtl, settled, nextIndex, Passes,
        hindex, hpos, hknown, hfree]
    | kAdded =>
      have hknown := (h.known ch).mp (by rw [hindex]; simp)
      obtain ⟨mask, hentry⟩ := h.entry ch hindex
      by_cases hevents : events = kNoneEvent
      · simp [updateChannel, setChannel, setIndex, update, epollCtl, settled, nextIndex, Passes,
          isNoneEvent, hindex, hpos, hknown, hentry, hevents]
      · simp [updateChannel, setChannel, update, epollCtl, settled, nextIndex, Passes,
          isNoneEvent, hindex, hpos, hknown, hentry, hevents]
  · rw [updateChannel, if_neg hpos, if_neg fun hp => hpos hp.1]

/-- **`remove`**, which takes a channel without events out of the set. -/
theorem Known.remove_eq (h : Known fd s) (ch : ι) :
    s.call fd ch .remove
      = if s.index ch ≠ .kNew ∧ (s.channel ch).events = kNoneEvent
        then some (settled fd s ch kNoneEvent .kNew) else none := by
  by_cases hnone : (s.channel ch).events = kNoneEvent
  · have hch : s.channel ch = ⟨kNoneEvent⟩ := by rw [← hnone]
    have hsame : Function.update s.channel ch ⟨kNoneEvent⟩ = s.channel := by
      rw [← hch, Function.update_eq_self]
    by_cases hnew : s.index ch = .kNew
    · have hunknown : s.channels (fd ch) ≠ some ch := fun hk => (h.known ch).mpr hk hnew
      simp [call, removeChannel, removable, hnone, hnew, hunknown]
    · have hknown := (h.known ch).mp hnew
      cases hindex : s.index ch with
      | kNew => exact absurd hindex hnew
      | kAdded =>
        obtain ⟨mask, hentry⟩ := h.entry ch hindex
        simp [call, removeChannel, removable, isNoneEvent, setIndex, update, epollCtl, settled,
          hnone, hindex, hknown, hentry, hsame]
      | kDeleted =>
        have hfree := h.epoll_none (.inr hknown) (by rw [hindex]; simp)
        have hepoll : Function.update s.epoll (fd ch) none = s.epoll := by
          rw [← hfree, Function.update_eq_self]
        simp [call, removeChannel, removable, isNoneEvent, setIndex, settled, hnone, hindex,
          hknown, hsame, hepoll]
  · simp [call, removable, hnone]

/-! ## With the events -/

theorem Linked.settle (h : Linked fd s) {ch : ι} (howns : Owns fd s ch) {events : BitVec 32}
    {index : Index} (hevents : index = .kAdded ↔ events ≠ kNoneEvent) :
    Linked fd (settled fd s ch events index) where
  added := fun ch' => by
    show Function.update s.index ch index ch' = _ ↔
      (Function.update s.channel ch ⟨events⟩ ch').events ≠ _
    -- the channel itself, and the others
    by_cases hch : ch' = ch
    · subst hch
      rw [Function.update_self, Function.update_self]
      exact hevents
    · rw [Function.update_of_ne hch, Function.update_of_ne hch]
      exact h.added ch'
  known := (h.toKnown.settle howns events index).known
  entry := fun ch' hadded => by
    change Function.update s.index ch index ch' = _ at hadded
    show Function.update s.epoll (fd ch) _ (fd ch') =
      some ⟨(Function.update s.channel ch ⟨events⟩ ch').events, ch'⟩
    by_cases hch : ch' = ch
    · subst hch
      rw [Function.update_self] at hadded
      rw [Function.update_self, Function.update_self, if_pos hadded]
    · rw [Function.update_of_ne hch] at hadded
      rw [Function.update_of_ne (h.toKnown.fd_ne_of_added howns hch hadded),
        Function.update_of_ne hch]
      exact h.entry ch' hadded
  owner := (h.toKnown.settle howns events index).owner

omit [DecidableEq ι] in
/-- The run ends. -/
theorem Linked.fail (h : Linked fd s) : Linked fd { s with failed := true } :=
  ⟨h.added, h.known, h.entry, h.owner⟩

/-- There is something to tell the poller, or an assertion fails. -/
theorem Linked.update (h : Linked fd s) {ch : ι} {events : BitVec 32}
    (htell : events ≠ kNoneEvent ∨ (s.channel ch).events ≠ kNoneEvent ∨ ¬ Passes fd s ch) :
    Linked fd (((s.setChannel ch ⟨events⟩).updateChannel fd ch).getD { s with failed := true }) := by
  rw [h.toKnown.updateChannel_eq]
  by_cases hpass : Passes fd s ch
  · rw [if_pos hpass, Option.getD_some]
    refine h.settle ((h.toKnown.owns_iff ch).mpr hpass.2) ?_
    unfold nextIndex
    by_cases hevents : events = kNoneEvent
    · -- the channel had events, so that it is taken out
      have hadded : s.index ch = .kAdded :=
        (h.added ch).mpr ((htell.resolve_left (not_not_intro hevents)).resolve_right
          (not_not_intro hpass))
      rw [if_pos ⟨hadded, hevents⟩]
      simp [hevents]
    · rw [if_neg fun hboth => hevents hboth.2]
      simp [hevents]
  · rw [if_neg hpass, Option.getD_none]
    exact h.fail

/-- A channel without events is added with an empty mask. -/
theorem Linked.update_none (h : Linked fd s) {ch : ι} (hpass : Passes fd s ch)
    (hnone : (s.channel ch).events = kNoneEvent) :
    ¬ Mirrors fd
      (((s.setChannel ch ⟨kNoneEvent⟩).updateChannel fd ch).getD { s with failed := true }) := by
  have hindex : s.index ch ≠ .kAdded := fun hadded => (h.added ch).mp hadded hnone
  rw [h.toKnown.updateChannel_eq, if_pos hpass, Option.getD_some, nextIndex,
    if_neg fun hboth => hindex hboth.1]
  intro hm
  refine (hm.events ch).mp ⟨⟨kNoneEvent, ch⟩, ?_, rfl⟩ ?_
  · exact Function.update_self _ _ _
  · show (Function.update s.channel ch ⟨kNoneEvent⟩ ch).events = _
    rw [Function.update_self]

/-- `disableAll` leaves a channel in the set. -/
theorem Linked.disableAll (h : Linked fd s) {ch : ι}
    (hevents : (s.channel ch).events ≠ kNoneEvent) :
    ¬ Mirrors fd (s.setChannel ch (s.channel ch).disableAll) := by
  intro hm
  refine (hm.events ch).mp ((h.registered_iff ch).mpr ((h.added ch).mpr hevents)) ?_
  show (Function.update s.channel ch _ ch).events = _
  rw [Function.update_self]
  rfl

theorem Linked.remove (h : Linked fd s) (ch : ι) :
    Linked fd ((s.call fd ch .remove).getD { s with failed := true }) := by
  rw [h.toKnown.remove_eq]
  split
  · rename_i hremove
    rw [Option.getD_some]
    exact h.settle (.inr ((h.known ch).mp hremove.1)) (by simp)
  · rw [Option.getD_none]
    exact h.fail

/-- The operation has something to tell the poller: `disableAll` is called on a channel
without events, and what takes events away on a channel with events, unless an assertion of
`updateChannel` fails. -/
def Keeps (fd : ι → Int) (s : EpollPoller ι) (a : ι × Op) : Prop :=
  s.failed = true ∨
    match a.2 with
    | .disableAll => (s.channel a.1).events = kNoneEvent
    | .disableReading | .disableWriting =>
      (s.channel a.1).events ≠ kNoneEvent ∨ ¬ Passes fd s a.1
    | .updateEvents events =>
      events ≠ kNoneEvent ∨ (s.channel a.1).events ≠ kNoneEvent ∨ ¬ Passes fd s a.1
    | .enableReading | .enableWriting | .remove => True

theorem linked_step (h : Linked fd s) (a : ι × Op) (hkeeps : Keeps fd s a) :
    Linked fd (s.step fd a) := by
  obtain ⟨ch, op⟩ := a
  rw [step]
  split
  · exact h
  · rename_i hrunning
    have hop := hkeeps.resolve_left hrunning
    cases op with
    | enableReading => exact h.update (.inl (enableReading_ne_none _))
    | disableReading => exact h.update (.inr hop)
    | enableWriting => exact h.update (.inl (enableWriting_ne_none _))
    | disableWriting => exact h.update (.inr hop)
    | updateEvents events => exact h.update hop
    | disableAll =>
      have hsame : s.setChannel ch (s.channel ch).disableAll = s := by
        have hch : s.channel ch = (s.channel ch).disableAll := congrArg Channel.mk hop
        rw [setChannel, ← hch, Function.update_eq_self]
      show Linked fd (s.setChannel ch (s.channel ch).disableAll)
      rw [hsame]
      exact h
    | remove => exact h.remove ch

theorem not_mirrors_step (h : Linked fd s) (a : ι × Op) (hkeeps : ¬ Keeps fd s a) :
    ¬ Mirrors fd (s.step fd a) := by
  obtain ⟨ch, op⟩ := a
  rw [Keeps, not_or] at hkeeps
  obtain ⟨hrunning, hop⟩ := hkeeps
  rw [step, if_neg hrunning]
  cases op with
  | enableReading => exact absurd trivial hop
  | disableReading =>
    -- there is no event to take away, and `updateChannel` adds the channel with an empty mask
    rw [not_or, not_not, not_not] at hop
    have hnone : (s.channel ch).disableReading = ⟨kNoneEvent⟩ := by
      rw [disableReading, hop.1]
      rfl
    rw [call, hnone]
    exact h.update_none hop.2 hop.1
  | enableWriting => exact absurd trivial hop
  | disableWriting =>
    rw [not_or, not_not, not_not] at hop
    have hnone : (s.channel ch).disableWriting = ⟨kNoneEvent⟩ := by
      rw [disableWriting, hop.1]
      rfl
    rw [call, hnone]
    exact h.update_none hop.2 hop.1
  | updateEvents events =>
    rw [not_or, not_or, not_not, not_not, not_not] at hop
    obtain ⟨rfl, hnone, hpass⟩ := hop
    exact h.update_none hpass hnone
  | disableAll => exact h.disableAll hop
  | remove => exact absurd trivial hop

/-- **The mirror**: over every run, the set in the kernel, the indices and the events agree
after each operation exactly when every operation has something to tell the poller. -/
theorem mirrors_iff_keeps (fd : ι → Int) (as : List (ι × Op)) :
    Runs.Always (step fd) (Mirrors fd) new as ↔ Runs.Along (step fd) (Keeps fd) new as :=
  Runs.always_iff_along (I := Linked fd) (H := fun _ _ => True) (fun _ h => h.mirrors)
    (fun _ a h _ hkeeps => linked_step h a hkeeps)
    (fun _ a h _ hkeeps => not_mirrors_step h a hkeeps) linked_new
    (Runs.along_of_forall (fun _ _ => trivial) _ _)

/-- A channel that is read and then disabled stays in the set; a new channel whose reading
is disabled gets into it. -/
theorem not_mirrors :
    ¬ Runs.Always (step fun _ => 5) (Mirrors fun _ => 5) (new : EpollPoller Unit)
        [((), .enableReading), ((), .disableAll)] ∧
      ¬ Runs.Always (step fun _ => 5) (Mirrors fun _ => 5) (new : EpollPoller Unit)
        [((), .disableReading)] := by
  constructor
  · intro h
    exact (h.last.events ()).mp ⟨⟨kReadEvent, ()⟩, rfl, rfl⟩ rfl
  · intro h
    exact (h.last.events ()).mp ⟨⟨kNoneEvent, ()⟩, rfl, rfl⟩ rfl

end EpollPoller

end XiaoNet
