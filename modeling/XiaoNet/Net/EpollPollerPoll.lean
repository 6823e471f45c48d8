import Mathlib.Data.List.Nodup
import XiaoNet.Net.EpollPollerRemove

/-!
# `EpollPoller::poll`

The poller with the `events_` that `epoll_wait` fills. What the kernel reports is an input of a
poll: `ready` are the descriptors that it has something to report for, whatever the trigger mode
they were registered with, `reports` is what it does report. `Documented` is what its manual
promises of the two.

- `poll`, `fillActiveChannels`: what the code does with the events; `size` is `events_.size()`.
- `Handed`: what one poll hands on. `Sized`: how `events_` grows.
- `sound_of_documented`: both in every run.
- `reported_of_ready`: a poll that has no room for a descriptor makes twice the room, so a
  descriptor that stays ready is left out by few polls, however many others are ready.
-/

namespace XiaoNet

universe u

namespace EpollPoller

open Channel

/-- The poller, and what its polls have done. -/
structure Polling (ι : Type u) where
  poller : EpollPoller ι
  size : Nat
  /-- `activeChannels_` of the loop. -/
  activeChannels : List ι
  revents : ι → BitVec 32
  /-- The descriptors of all channels that polls have handed on. -/
  reported : List Int
  /-- How many polls have filled `events_`. -/
  full : Nat
  /-- How many have left a descriptor out that was ready. -/
  short : Nat
  /-- The most that were ready at a poll. -/
  most : Nat

namespace Polling

variable {ι : Type u}

def kInitEventListSize : Nat := 16

def new : Polling ι where
  poller := .new
  size := kInitEventListSize
  activeChannels := []
  revents _ := 0
  reported := []
  full := 0
  short := 0
  most := 0

/-- What `::epoll_wait` puts into `events_`: with each descriptor what it was registered with. -/
def epollWait (s : Polling ι) (reports : List (Int × BitVec 32)) : List (EpollEvent ι) :=
  reports.filterMap fun report =>
    (s.poller.epoll report.1).map fun entry => ⟨report.2, entry.ptr⟩

inductive Op (ι : Type u) where
  /-- An operation on a channel. -/
  | call (ch : ι) (op : EpollPoller.Op)
  | poll (ready : List Int) (reports : List (Int × BitVec 32))
  /-- `::epoll_wait` returns -1, as a signal makes it do. -/
  | pollFails

/-- What `epoll_wait` promises. There are fewer descriptors than `int` has numbers. -/
structure Waited (s : Polling ι) (ready : List Int) (reports : List (Int × BitVec 32)) : Prop where
  ready_nodup : ready.Nodup
  registered : ∀ f ∈ ready, s.poller.epoll f ≠ none
  few : ready.length < 2 ^ 30
  /-- As many as there is room for. -/
  length_eq : reports.length = min s.size ready.length
  nodup : (reports.map Prod.fst).Nodup
  of_ready : ∀ report ∈ reports, report.1 ∈ ready
  of_mask : ∀ report ∈ reports, report.2 ≠ 0 ∧
    ∀ mask ptr, s.poller.epoll report.1 = some ⟨mask, ptr⟩ →
      report.2 &&& ~~~(mask ||| POLLERR ||| POLLHUP) = 0

def Documented (s : Polling ι) : Op ι → Prop
  | .poll ready reports => s.poller.failed = false → Waited s ready reports
  | _ => True

/-- `s'` is `s` after a poll: the channels handed on are those of the descriptors reported, in
order, each once and with its events, and the poller knows them. -/
structure Handed (fd : ι → Int) (s s' : Polling ι) (reports : List (Int × BitVec 32)) : Prop where
  poller_eq : s'.poller = s.poller
  reports_eq : s'.activeChannels.map (fun ch => (fd ch, s'.revents ch)) = reports
  nodup : s'.activeChannels.Nodup
  known : ∀ ch ∈ s'.activeChannels, s.poller.channels (fd ch) = some ch ∧ s'.revents ch ≠ 0 ∧
    ∃ mask, s.poller.epoll (fd ch) = some ⟨mask, ch⟩ ∧
      s'.revents ch &&& ~~~(mask ||| POLLERR ||| POLLHUP) = 0
  others : ∀ ch, ch ∉ s'.activeChannels → s'.revents ch = s.revents ch

/-- `events_` doubles with each poll that fills it. -/
structure Sized (s : Polling ι) : Prop where
  size_eq : s.size = kInitEventListSize * 2 ^ s.full
  size_le : s.size ≤ max kInitEventListSize (2 * s.most)
  /-- Its size is passed to `epoll_wait` as an `int`. -/
  size_lt : s.size < 2 ^ 31
  most_lt : s.most < 2 ^ 30
  short_le : s.short ≤ s.full
  /-- Few polls of a run leave something out. -/
  short_lt : s.short = 0 ∨ kInitEventListSize * 2 ^ s.short < 2 * s.most

variable [DecidableEq ι] (fd : ι → Int)

def fillActiveChannels (s : Polling ι) : List (EpollEvent ι) → Option (Polling ι)
  | [] => some s
  | event :: events =>
    if s.poller.channels (fd event.ptr) = some event.ptr then
      fillActiveChannels
        { s with
          revents := Function.update s.revents event.ptr event.events
          activeChannels := s.activeChannels ++ [event.ptr] }
        events
    else none

/-- `events_.resize`. -/
def resize (s : Polling ι) (numEvents : Nat) : Polling ι :=
  { s with size := if numEvents = s.size then s.size * 2 else s.size }

def poll (s : Polling ι) (reports : List (Int × BitVec 32)) : Option (Polling ι) :=
  let events := s.epollWait reports
  if events.length > 0 then
    if events.length ≤ s.size then
      (s.fillActiveChannels fd events).map fun s => s.resize events.length
    else none
  else some s

/-- Keep count of a poll that `events_` of this size was given to. -/
def note (s : Polling ι) (size : Nat) (ready : List Int) (reports : List (Int × BitVec 32)) :
    Polling ι :=
  { s with
    reported := s.reported ++ s.activeChannels.map fd
    full := if reports.length = size then s.full + 1 else s.full
    short := if ∀ f ∈ ready, f ∈ s.activeChannels.map fd then s.short else s.short + 1
    most := max s.most ready.length }

def step (s : Polling ι) : Op ι → Polling ι
  | .call ch op => { s with poller := s.poller.step fd (ch, op) }
  | .poll ready reports =>
    if s.poller.failed then s
    else
      -- `loop()` clears the channels of the poll before
      match { s with activeChannels := [] }.poll fd reports with
      | some s' => s'.note fd s.size ready reports
      | none => { s with poller := { s.poller with failed := true } }
  | .pollFails => if s.poller.failed then s else { s with activeChannels := [] }

def Hands (fd : ι → Int) (s : Polling ι) : Op ι → Prop
  | .poll ready reports =>
    s.poller.failed = false → Handed fd s (s.step fd (.poll ready reports)) reports
  | _ => True

variable {fd} {s : Polling ι} {ready : List Int} {reports : List (Int × BitVec 32)}

/-! ## One poll -/

omit [DecidableEq ι] in
theorem Waited.reported_registered (h : Waited s ready reports) :
    ∀ report ∈ reports, s.poller.epoll report.1 ≠ none :=
  fun report hreport => h.registered _ (h.of_ready report hreport)

omit [DecidableEq ι] in
/-- The events are those of the channels of the descriptors reported. -/
theorem epollWait_map (hp : Known fd s.poller)
    (hregistered : ∀ report ∈ reports, s.poller.epoll report.1 ≠ none) :
    (s.epollWait reports).map (fun event => (fd event.ptr, event.events)) = reports := by
  induction reports with
  | nil => rfl
  | cons report reports ih =>
    have hrest := ih fun r hr => hregistered r (List.mem_cons_of_mem report hr)
    unfold epollWait at hrest ⊢
    cases hentry : s.poller.epoll report.1 with
    | none => exact absurd hentry (hregistered report List.mem_cons_self)
    | some entry =>
      rw [List.filterMap_cons_some (b := ⟨report.2, entry.ptr⟩) (by rw [hentry]; rfl),
        List.map_cons, hrest]
      -- the descriptor of the channel is the one it was registered with
      have hfd : fd entry.ptr = report.1 := (hp.owner report.1 entry hentry).1
      rw [hfd]

omit [DecidableEq ι] in
theorem mem_epollWait {event : EpollEvent ι} (h : event ∈ s.epollWait reports) :
    ∃ report ∈ reports, ∃ mask, s.poller.epoll report.1 = some ⟨mask, event.ptr⟩ ∧
      event.events = report.2 := by
  unfold epollWait at h
  obtain ⟨report, hreport, heq⟩ := List.mem_filterMap.mp h
  cases hentry : s.poller.epoll report.1 with
  | none =>
    rw [hentry] at heq
    cases heq
  | some entry =>
    rw [hentry] at heq
    cases heq
    exact ⟨report, hreport, entry.events, hentry, rfl⟩

/-- What the loop of `fillActiveChannels` writes into the channels. -/
def setRevents (revents : ι → BitVec 32) (events : List (EpollEvent ι)) : ι → BitVec 32 :=
  events.foldl (fun revents event => Function.update revents event.ptr event.events) revents

theorem setRevents_of_notMem {revents : ι → BitVec 32} {events : List (EpollEvent ι)} {ch : ι}
    (hout : ch ∉ events.map EpollEvent.ptr) : setRevents revents events ch = revents ch := by
  induction events generalizing revents with
  | nil => rfl
  | cons event events ih =>
    rw [List.map_cons, List.mem_cons, not_or] at hout
    exact (ih hout.2).trans (Function.update_of_ne hout.1 _ _)

theorem setRevents_of_mem {revents : ι → BitVec 32} {events : List (EpollEvent ι)}
    {event : EpollEvent ι} (hnodup : (events.map EpollEvent.ptr).Nodup) (hevent : event ∈ events) :
    setRevents revents events event.ptr = event.events := by
  induction events generalizing revents with
  | nil => cases hevent
  | cons first events ih =>
    obtain ⟨hout, hrest⟩ := List.nodup_cons.mp hnodup
    rcases List.mem_cons.mp hevent with rfl | hin
    · -- no later event is of this channel, so its events stay
      exact (setRevents_of_notMem hout).trans (Function.update_self _ _ _)
    · exact ih hrest hin

/-- Its assertions hold when the poller knows the channels. -/
theorem fill_of_known {events : List (EpollEvent ι)}
    (hknown : ∀ event ∈ events, s.poller.channels (fd event.ptr) = some event.ptr) :
    s.fillActiveChannels fd events = some
      { s with
        revents := setRevents s.revents events
        activeChannels := s.activeChannels ++ events.map EpollEvent.ptr } := by
  induction events generalizing s with
  | nil => rw [fillActiveChannels, List.map_nil, List.append_nil, setRevents, List.foldl_nil]
  | cons event events ih =>
    rw [fillActiveChannels, if_pos (hknown event List.mem_cons_self)]
    have hrest := ih (s := { s with
      revents := Function.update s.revents event.ptr event.events
      activeChannels := s.activeChannels ++ [event.ptr] })
      fun e he => hknown e (List.mem_cons_of_mem event he)
    rw [hrest]
    dsimp only
    rw [List.append_assoc, List.map_cons, List.singleton_append]
    rfl

/-- The events of a documented poll. -/
structure Events (fd : ι → Int) (s : Polling ι) (reports : List (Int × BitVec 32)) : Prop where
  length_eq : (s.epollWait reports).length = reports.length
  fds : (s.epollWait reports).map (fun event => fd event.ptr) = reports.map Prod.fst
  nodup : ((s.epollWait reports).map EpollEvent.ptr).Nodup
  known : ∀ event ∈ s.epollWait reports, s.poller.channels (fd event.ptr) = some event.ptr ∧
    event.events ≠ 0 ∧ ∃ mask, s.poller.epoll (fd event.ptr) = some ⟨mask, event.ptr⟩ ∧
      event.events &&& ~~~(mask ||| POLLERR ||| POLLHUP) = 0

omit [DecidableEq ι] in
theorem Waited.events (h : Waited s ready reports) (hp : Known fd s.poller) :
    Events fd s reports := by
  have hmap := epollWait_map hp h.reported_registered
  have hfds : (s.epollWait reports).map (fun event => fd event.ptr) = reports.map Prod.fst := by
    conv_rhs => rw [← hmap, List.map_map]
    rfl
  constructor
  case length_eq =>
    conv_rhs => rw [← hmap, List.length_map]
  case fds => exact hfds
  case nodup =>
    -- a channel is found by its descriptor, so none comes twice
    have hsplit : (s.epollWait reports).map (fun event => fd event.ptr)
        = ((s.epollWait reports).map EpollEvent.ptr).map fd := by
      rw [List.map_map]
      rfl
    have hnodup := h.nodup
    rw [← hfds, hsplit] at hnodup
    exact hnodup.of_map fd
  case known =>
    intro event hevent
    obtain ⟨report, hreport, mask, hentry, hevents⟩ := mem_epollWait hevent
    obtain ⟨hfd, hadded⟩ := hp.owner report.1 _ hentry
    obtain ⟨hne, hmask⟩ := h.of_mask report hreport
    have hfd' : fd event.ptr = report.1 := hfd
    refine ⟨(hp.known event.ptr).mp ?_, hevents ▸ hne, mask, ?_, ?_⟩
    · have hadded' : s.poller.index event.ptr = .kAdded := hadded
      rw [hadded']
      rintro ⟨⟩
    · rw [hfd']
      exact hentry
    · rw [hevents]
      exact hmask mask event.ptr hentry

/-- **One poll**: the assertions hold, and `events_` doubles when it is full. -/
theorem poll_eq (hp : Known fd s.poller) (h : Waited s ready reports) (hpos : 0 < s.size)
    (hempty : s.activeChannels = []) :
    s.poll fd reports = some
      { s with
        revents := setRevents s.revents (s.epollWait reports)
        activeChannels := (s.epollWait reports).map EpollEvent.ptr
        size := if reports.length = s.size then s.size * 2 else s.size } := by
  have hevents := h.events hp
  have hlen : reports.length ≤ s.size := by
    rw [h.length_eq]
    exact Nat.min_le_left _ _
  unfold poll
  dsimp only
  rw [hevents.length_eq]
  by_cases hsome : reports.length > 0
  · rw [if_pos hsome, if_pos hlen, fill_of_known fun event hevent => (hevents.known event hevent).1,
      hempty]
    rfl
  · -- nothing is handed on, and an empty poll does not fill `events_`
    have hnil : reports = [] := List.length_eq_zero_iff.mp (by omega)
    subst hnil
    have hnone : s.epollWait [] = [] := rfl
    rw [if_neg hsome, if_neg (by rw [List.length_nil]; omega), hnone, List.map_nil, ← hempty]
    rfl

/-- What the step of a poll comes to. -/
theorem step_poll_eq (hp : Known fd s.poller) (h : Waited s ready reports) (hpos : 0 < s.size)
    (hok : s.poller.failed = false) :
    s.step fd (.poll ready reports) =
      { s with
        revents := setRevents s.revents (s.epollWait reports)
        activeChannels := (s.epollWait reports).map EpollEvent.ptr
        size := if reports.length = s.size then s.size * 2 else s.size
        reported := s.reported ++ reports.map Prod.fst
        full := if reports.length = s.size then s.full + 1 else s.full
        short := if ∀ f ∈ ready, f ∈ reports.map Prod.fst then s.short else s.short + 1
        most := max s.most ready.length } := by
  have hpoll := poll_eq (s := { s with activeChannels := [] }) hp ⟨h.ready_nodup, h.registered,
    h.few, h.length_eq, h.nodup, h.of_ready, h.of_mask⟩ hpos rfl
  have hfds : ((s.epollWait reports).map EpollEvent.ptr).map fd = reports.map Prod.fst := by
    rw [← (h.events hp).fds, List.map_map]
    rfl
  have hfailed : ¬ s.poller.failed = true := by
    rw [hok]
    simp
  rw [step, if_neg hfailed, hpoll]
  dsimp only
  unfold note
  dsimp only
  have hsame : epollWait { s with activeChannels := [] } reports = s.epollWait reports := rfl
  rw [hsame, hfds]

theorem handed_poll (hp : Known fd s.poller) (h : Waited s ready reports) (hpos : 0 < s.size)
    (hok : s.poller.failed = false) :
    Handed fd s (s.step fd (.poll ready reports)) reports := by
  have hevents := h.events hp
  rw [step_poll_eq hp h hpos hok]
  constructor
  case poller_eq => rfl
  case reports_eq =>
    rw [List.map_map]
    conv_rhs => rw [← epollWait_map hp h.reported_registered]
    refine List.map_congr_left fun event hevent => ?_
    exact congrArg (Prod.mk _) (setRevents_of_mem hevents.nodup hevent)
  case nodup => exact hevents.nodup
  case known =>
    intro ch hch
    obtain ⟨event, hevent, rfl⟩ := List.mem_map.mp hch
    dsimp only
    rw [setRevents_of_mem hevents.nodup hevent]
    exact hevents.known event hevent
  case others => exact fun ch hch => setRevents_of_notMem hch

/-! ## Growth -/

omit [DecidableEq ι] in
/-- A poll that leaves something out has filled `events_`. -/
theorem Waited.size_lt (h : Waited s ready reports)
    (hshort : ¬ ∀ f ∈ ready, f ∈ reports.map Prod.fst) : s.size < ready.length := by
  by_contra hroom
  have hall : reports.length = ready.length := by
    rw [h.length_eq]
    exact Nat.min_eq_right (by omega)
  -- as many different ones as there are, all of them ready
  have hperm : (reports.map Prod.fst).Subperm ready := by
    refine h.nodup.subperm fun f hf => ?_
    obtain ⟨report, hreport, rfl⟩ := List.mem_map.mp hf
    exact h.of_ready report hreport
  have hsame := hperm.perm_of_length_le (by rw [List.length_map, hall])
  exact hshort fun f hf => hsame.symm.subset hf

omit [DecidableEq ι] in
theorem Sized.pos (h : Sized s) : kInitEventListSize ≤ s.size := by
  rw [h.size_eq]
  exact Nat.le_mul_of_pos_right _ (Nat.two_pow_pos _)

omit [DecidableEq ι] in
theorem sized_new : Sized (new : Polling ι) where
  size_eq := rfl
  size_le := Nat.le_max_left _ _
  size_lt := (by decide : kInitEventListSize < 2 ^ 31)
  most_lt := (by decide : 0 < 2 ^ 30)
  short_le := Nat.le_refl _
  short_lt := .inl rfl

omit [DecidableEq ι] in
/-- The size is no business of the channels. -/
theorem Sized.other (h : Sized s) (poller : EpollPoller ι) (activeChannels : List ι) :
    Sized { s with poller := poller, activeChannels := activeChannels } :=
  ⟨h.size_eq, h.size_le, h.size_lt, h.most_lt, h.short_le, h.short_lt⟩

theorem Sized.poll (h : Sized s) (hp : Known fd s.poller) (hw : Waited s ready reports)
    (hok : s.poller.failed = false) : Sized (s.step fd (.poll ready reports)) := by
  have hpos : 0 < s.size := Nat.lt_of_lt_of_le (by decide) h.pos
  have hlength := hw.length_eq
  have hfew := hw.few
  have hmost := h.most_lt
  have hinit : kInitEventListSize = 16 := rfl
  -- a full poll has come back with as many as there was room for
  have hgrown : (if reports.length = s.size then s.size * 2 else s.size)
      ≤ max kInitEventListSize (2 * max s.most ready.length) := by
    have hle := h.size_le
    split
    · omega
    · omega
  rw [step_poll_eq hp hw hpos hok]
  constructor
  case size_eq =>
    dsimp only
    split
    · rw [h.size_eq, Nat.pow_succ, Nat.mul_assoc]
    · exact h.size_eq
  case size_le => exact hgrown
  case size_lt =>
    dsimp only
    omega
  case most_lt =>
    dsimp only
    omega
  case short_le =>
    have hle := h.short_le
    dsimp only
    split
    · split
      · omega
      · omega
    · rename_i hshort
      have hlt := hw.size_lt hshort
      rw [if_pos (by omega)]
      omega
  case short_lt =>
    dsimp only
    split
    · exact h.short_lt.imp_right fun hold => by omega
    · -- the polls that left something out before have each made twice the room
      rename_i hshort
      have hlt := hw.size_lt hshort
      have hpow : 2 ^ s.short ≤ 2 ^ s.full := Nat.pow_le_pow_right (by decide) h.short_le
      have hsize := h.size_eq
      rw [hinit] at hsize ⊢
      rw [Nat.pow_succ]
      omega

/-! ## Runs -/

structure Inv (fd : ι → Int) (s : Polling ι) : Prop where
  known : Known fd s.poller
  sized : Sized s

omit [DecidableEq ι] in
theorem inv_new : Inv fd (new : Polling ι) := ⟨known_new, sized_new⟩

theorem inv_step (s : Polling ι) (op : Op ι) (h : Inv fd s) (hop : s.Documented op) :
    Inv fd (s.step fd op) := by
  cases op with
  | call ch op => exact ⟨known_step s.poller (ch, op) h.known, h.sized.other _ _⟩
  | poll ready reports =>
    cases hok : s.poller.failed with
    | true =>
      rw [step, if_pos hok]
      exact h
    | false =>
      have hpos : 0 < s.size := Nat.lt_of_lt_of_le (by decide) h.sized.pos
      refine ⟨?_, h.sized.poll h.known (hop hok) hok⟩
      rw [(handed_poll h.known (hop hok) hpos hok).poller_eq]
      exact h.known
  | pollFails =>
    rw [step]
    split
    · exact h
    · exact ⟨h.known, h.sized.other _ _⟩

theorem hands_of_documented (s : Polling ι) (op : Op ι) (h : Inv fd s) (hop : s.Documented op) :
    s.Hands fd op := by
  cases op with
  | call ch op => trivial
  | poll ready reports =>
    have hpos : 0 < s.size := Nat.lt_of_lt_of_le (by decide) h.sized.pos
    exact fun hok => handed_poll h.known (hop hok) hpos hok
  | pollFails => trivial

/-- **Polling**: along every run of operations on the channels of a loop and of polls, whatever the
kernel reports within its promises, `poll` hands on the channels of just the descriptors reported,
and `events_` doubles with each poll that fills it, and never else. -/
theorem sound_of_documented (fd : ι → Int) (ops : List (Op ι))
    (h : Runs.Along (step fd) Documented new ops) :
    Runs.Along (step fd) (Hands fd) new ops ∧ Runs.Always (step fd) Sized new ops :=
  ⟨Runs.along_of_invariant inv_step hands_of_documented inv_new h,
    (Runs.always_of_along inv_step inv_new h).mono fun _ hi => hi.sized⟩

/-- An edge-triggered channel, reported once and not again. -/
theorem sound_of_documented_edge :
    let ops : List (Op Unit) :=
      [.call () (.updateEvents (POLLIN ||| 0x80000000#32)), .poll [5] [(5, POLLIN)], .poll [] [],
        .pollFails]
    Runs.Along (step fun _ => 5) (Hands fun _ => 5) new ops ∧
      Runs.Always (step fun _ => 5) Sized new ops :=
  sound_of_documented (fun _ => 5) _
    ⟨trivial, fun _ => ⟨by decide, by decide, by decide, by decide, by decide, by decide,
      fun _ hin => by
        obtain rfl := List.mem_singleton.mp hin
        refine ⟨by decide, fun mask ptr hentry => ?_⟩
        obtain rfl := congrArg EpollEvent.events (Option.some.inj hentry)
        decide⟩,
      fun _ => ⟨by decide, nofun, by decide, by decide, by decide, nofun, nofun⟩, trivial, trivial⟩

/-! ## No starvation -/

/-- The polls of a run that do not fail. -/
def polls : List (Op ι) → Nat
  | [] => 0
  | .poll _ _ :: ops => polls ops + 1
  | _ :: ops => polls ops

theorem failed_step (op : Op ι) (hok : (s.step fd op).poller.failed = false) :
    s.poller.failed = false := by
  cases op with
  | call ch op => exact failed_of_step hok
  | poll ready reports =>
    by_contra hfailed
    rw [step, if_pos (eq_true_of_ne_false hfailed)] at hok
    exact hfailed hok
  | pollFails =>
    by_contra hfailed
    rw [step, if_pos (eq_true_of_ne_false hfailed)] at hok
    exact hfailed hok

theorem failed_run (ops : List (Op ι)) (hok : (Runs.run (step fd) s ops).poller.failed = false) :
    s.poller.failed = false := by
  induction ops generalizing s with
  | nil => exact hok
  | cons op ops ih => exact failed_step op (ih hok)

/-- A step that is no poll leaves alone what the polls have done. -/
theorem step_other {op : Op ι} (hop : ∀ ready reports, op ≠ .poll ready reports) :
    (s.step fd op).size = s.size ∧ (s.step fd op).reported = s.reported := by
  cases op with
  | call ch op => exact ⟨rfl, rfl⟩
  | poll ready reports => exact absurd rfl (hop ready reports)
  | pollFails =>
    rw [step]
    split <;> exact ⟨rfl, rfl⟩

/-- What was reported stays reported. -/
theorem reported_run (h : Inv fd s) {ops : List (Op ι)}
    (hdoc : Runs.Along (step fd) Documented s ops) :
    ∃ later, (Runs.run (step fd) s ops).reported = s.reported ++ later := by
  induction ops generalizing s with
  | nil => exact ⟨[], (List.append_nil _).symm⟩
  | cons op ops ih =>
    obtain ⟨later, heq⟩ := ih (inv_step s op h hdoc.1) hdoc.2
    -- the log only grows, and only by a poll
    obtain ⟨now, hnow⟩ : ∃ now, (s.step fd op).reported = s.reported ++ now := by
      by_cases hpoll : ∃ ready reports, op = .poll ready reports
      · obtain ⟨ready, reports, rfl⟩ := hpoll
        cases hok : s.poller.failed with
        | true =>
          rw [step, if_pos hok]
          exact ⟨[], (List.append_nil _).symm⟩
        | false =>
          have hpos : 0 < s.size := Nat.lt_of_lt_of_le (by decide) h.sized.pos
          rw [step_poll_eq h.known (hdoc.1 hok) hpos hok]
          exact ⟨_, rfl⟩
      · have hother : (s.step fd op).size = s.size ∧ (s.step fd op).reported = s.reported :=
          step_other fun ready reports heq => hpoll ⟨ready, reports, heq⟩
        exact ⟨[], hother.2.trans (List.append_nil _).symm⟩
    exact ⟨now ++ later, by rw [Runs.run_cons, heq, hnow, List.append_assoc]⟩

/-- Each poll that leaves the descriptor out makes twice the room for the next. -/
theorem reported_from {f : Int} {m : Nat} {ops : List (Op ι)} (h : Inv fd s)
    (hdoc : Runs.Along (step fd) Documented s ops)
    (hok : (Runs.run (step fd) s ops).poller.failed = false)
    (hready : ∀ ready reports, .poll ready reports ∈ ops → f ∈ ready ∧ ready.length ≤ m)
    (hpolls : 0 < polls ops) (hroom : 2 * m ≤ s.size * 2 ^ polls ops) :
    ∃ later, (Runs.run (step fd) s ops).reported = s.reported ++ later ∧ f ∈ later := by
  induction ops generalizing s with
  | nil => exact absurd hpolls (Nat.lt_irrefl 0)
  | cons op ops ih =>
    have hinv := inv_step s op h hdoc.1
    have hlater : ∀ ready reports, .poll ready reports ∈ ops → f ∈ ready ∧ ready.length ≤ m :=
      fun ready reports hin => hready ready reports (List.mem_cons_of_mem op hin)
    by_cases hpoll : ∃ ready reports, op = .poll ready reports
    · obtain ⟨ready, reports, rfl⟩ := hpoll
      have hrunning := failed_run (.poll ready reports :: ops) hok
      have hwaited := hdoc.1 hrunning
      have hpos : 0 < s.size := Nat.lt_of_lt_of_le (by decide) h.sized.pos
      have hstep := step_poll_eq h.known hwaited hpos hrunning
      obtain ⟨hf, hfew⟩ := hready ready reports List.mem_cons_self
      by_cases hin : f ∈ reports.map Prod.fst
      · -- this poll reports it
        obtain ⟨later, heq⟩ := reported_run hinv hdoc.2
        refine ⟨reports.map Prod.fst ++ later, ?_, List.mem_append_left _ hin⟩
        rw [Runs.run_cons, heq, hstep, List.append_assoc]
      · -- there was no room for it
        have hlt := hwaited.size_lt fun hall => hin (hall f hf)
        have hfull : reports.length = s.size := by
          rw [hwaited.length_eq]
          exact Nat.min_eq_left (Nat.le_of_lt hlt)
        have hsize : (s.step fd (.poll ready reports)).size = s.size * 2 := by
          rw [hstep]
          exact if_pos hfull
        rw [polls, Nat.pow_succ] at hroom
        have hmore : 0 < polls ops := by
          by_contra hlast
          rw [Nat.eq_zero_of_not_pos hlast] at hroom
          omega
        have hroom' : 2 * m ≤ (s.step fd (.poll ready reports)).size * 2 ^ polls ops := by
          rw [hsize, Nat.mul_assoc, Nat.mul_comm 2 (2 ^ polls ops)]
          exact hroom
        obtain ⟨later, heq, hmem⟩ := ih hinv hdoc.2 hok hlater hmore hroom'
        refine ⟨reports.map Prod.fst ++ later, ?_, List.mem_append_right _ hmem⟩
        rw [Runs.run_cons, heq, hstep, List.append_assoc]
    · -- another step reports nothing and leaves the size as it is
      have hother : (s.step fd op).size = s.size ∧ (s.step fd op).reported = s.reported :=
        step_other fun ready reports heq => hpoll ⟨ready, reports, heq⟩
      have hsame : polls (op :: ops) = polls ops := by
        cases op with
        | poll ready reports => exact absurd ⟨ready, reports, rfl⟩ hpoll
        | call ch op => rfl
        | pollFails => rfl
      rw [hsame] at hpolls hroom
      rw [← hother.1] at hroom
      obtain ⟨later, heq, hmem⟩ := ih hinv hdoc.2 hok hlater hpolls hroom
      exact ⟨later, by rw [Runs.run_cons, heq, hother.2], hmem⟩

/-- **No starvation**: after any run, a descriptor that is ready at every poll is handed on by one
of `k` polls when at most half of `events_.size() * 2 ^ k` descriptors are ready at a time. -/
theorem reported_of_ready (fd : ι → Int) (before ops : List (Op ι)) {f : Int} {m : Nat}
    (hdoc : Runs.Along (step fd) Documented new (before ++ ops))
    (hok : (Runs.run (step fd) new (before ++ ops)).poller.failed = false)
    (hready : ∀ ready reports, .poll ready reports ∈ ops → f ∈ ready ∧ ready.length ≤ m)
    (hpolls : 0 < polls ops)
    (hroom : 2 * m ≤ (Runs.run (step fd) new before).size * 2 ^ polls ops) :
    ∃ later, (Runs.run (step fd) new (before ++ ops)).reported
      = (Runs.run (step fd) new before).reported ++ later ∧ f ∈ later := by
  obtain ⟨hbefore, hafter⟩ := Runs.along_append.mp hdoc
  have hinv : Inv fd (Runs.run (step fd) new before) :=
    (Runs.always_of_along inv_step inv_new hbefore).last
  rw [Runs.run_append] at hok ⊢
  exact reported_from hinv hafter hok hready hpolls hroom

/-- One channel, which can be read when it is polled. -/
theorem reported_of_ready_one :
    ∃ later, (Runs.run (step fun _ => 5) (new : Polling Unit)
      ([.call () .enableReading] ++ [.poll [5] [(5, POLLIN)]])).reported
      = (Runs.run (step fun _ => 5) (new : Polling Unit) [.call () .enableReading]).reported
          ++ later ∧ 5 ∈ later :=
  reported_of_ready (fun _ => 5) [.call () .enableReading] [.poll [5] [(5, POLLIN)]] (m := 1)
    ⟨trivial, fun _ => ⟨by decide, by decide, by decide, by decide, by decide, by decide,
      fun _ hin => by
        obtain rfl := List.mem_singleton.mp hin
        refine ⟨by decide, fun mask ptr hentry => ?_⟩
        obtain rfl := congrArg EpollEvent.events (Option.some.inj hentry)
        decide⟩, trivial⟩
    (by decide)
    (fun ready reports hin => by
      obtain ⟨rfl, rfl⟩ := Op.poll.inj (List.mem_singleton.mp hin)
      decide)
    (by decide) (by decide)

end Polling

end EpollPoller

end XiaoNet
