import XiaoNet.Net.EpollPollerMirror

/-!
# Taking a channel down

The owner of a channel ends with `disableAll(); remove();`, whatever it did with the channel
before.

- `TornDown`: the two calls get past the assertions and leave the channel as constructed.
- `told`: whether the channel has been made known to the poller since its construction or its
  last `remove`, by any operation but `disableAll`.
- `tornDown_iff_told`: the two calls are legal exactly then. `removeChannel` expects the channel
  in `channels_`, so that a channel which was never enabled fails there.
-/

namespace XiaoNet

universe u

namespace EpollPoller

open Channel

variable {ι : Type u} [DecidableEq ι] {fd : ι → Int} {s : EpollPoller ι}

/-- `disableAll(); remove();` is legal and leaves the channel out of everything, so that it can
be given events again. -/
def TornDown (fd : ι → Int) (s : EpollPoller ι) (ch : ι) : Prop :=
  ∃ s', (s.call fd ch .disableAll >>= fun s => s.call fd ch .remove) = some s' ∧
    s'.epoll (fd ch) = none ∧ s'.channels (fd ch) = none ∧ s'.index ch = .kNew ∧
    ∀ events, (s'.call fd ch (.updateEvents events)).isSome

/-- Whether the poller knows channel `ch` after operation `a`. -/
def toldBy (ch : ι) (told : Bool) (a : ι × Op) : Bool :=
  if a.1 = ch then
    match a.2 with
    | .remove => false
    | .disableAll => told
    | _ => true
  else told

def told (ch : ι) (as : List (ι × Op)) : Bool := as.foldl (toldBy ch) false

theorem told_concat (ch : ι) (as : List (ι × Op)) (a : ι × Op) :
    told ch (as ++ [a]) = toldBy ch (told ch as) a :=
  List.foldl_concat ..

omit [DecidableEq ι] in
theorem known_new : Known fd (new : EpollPoller ι) := linked_new.toKnown

omit [DecidableEq ι] in
theorem Known.fail (h : Known fd s) : Known fd { s with failed := true } :=
  ⟨h.known, h.entry, h.owner⟩

/-- What an operation that gets past its assertions leaves: it only touches its channel. -/
theorem Known.call_eq (h : Known fd s) (ch : ι) (op : Op) {s' : EpollPoller ι}
    (hcall : s.call fd ch op = some s') :
    s' = s.setChannel ch ⟨kNoneEvent⟩ ∧ op = .disableAll ∨
      Owns fd s ch ∧ ∃ events index, s' = settled fd s ch events index ∧
        (index = .kNew ↔ op = .remove) ∧ op ≠ .disableAll := by
  -- all but two operations are an `update` with some events
  have hupdate : ∀ events, (s.setChannel ch ⟨events⟩).updateChannel fd ch = some s' →
      Owns fd s ch ∧ s' = settled fd s ch events (nextIndex (s.index ch) events) := by
    intro events heq
    rw [h.updateChannel_eq] at heq
    split at heq
    · rename_i hpass
      exact ⟨(h.owns_iff ch).mpr hpass.2, (Option.some.inj heq).symm⟩
    · cases heq
  -- which never leaves the channel out of the poller
  have hindex : ∀ events, nextIndex (s.index ch) events ≠ .kNew := by
    intro events
    unfold nextIndex
    split <;> simp
  cases op with
  | disableAll => exact .inl ⟨(Option.some.inj hcall).symm, rfl⟩
  | remove =>
    rw [h.remove_eq] at hcall
    split at hcall
    · rename_i hremove
      exact .inr ⟨.inr ((h.known ch).mp hremove.1), _, _, (Option.some.inj hcall).symm,
        by simp, by simp⟩
    · cases hcall
  | enableReading =>
    obtain ⟨howns, heq⟩ := hupdate _ hcall
    exact .inr ⟨howns, _, _, heq, by simp [hindex], by simp⟩
  | disableReading =>
    obtain ⟨howns, heq⟩ := hupdate _ hcall
    exact .inr ⟨howns, _, _, heq, by simp [hindex], by simp⟩
  | enableWriting =>
    obtain ⟨howns, heq⟩ := hupdate _ hcall
    exact .inr ⟨howns, _, _, heq, by simp [hindex], by simp⟩
  | disableWriting =>
    obtain ⟨howns, heq⟩ := hupdate _ hcall
    exact .inr ⟨howns, _, _, heq, by simp [hindex], by simp⟩
  | updateEvents events =>
    obtain ⟨howns, heq⟩ := hupdate _ hcall
    exact .inr ⟨howns, _, _, heq, by simp [hindex], by simp⟩

theorem Known.setChannel (h : Known fd s) (ch : ι) (channel : Channel) :
    Known fd (s.setChannel ch channel) :=
  ⟨h.known, h.entry, h.owner⟩

theorem known_step (s : EpollPoller ι) (a : ι × Op) (h : Known fd s) : Known fd (s.step fd a) := by
  rw [step]
  split
  · exact h
  · cases hcall : s.call fd a.1 a.2 with
    | none => exact h.fail
    | some s' =>
      rcases h.call_eq a.1 a.2 hcall with ⟨rfl, -⟩ | ⟨howns, events, index, rfl, -⟩
      · exact h.setChannel _ _
      · exact h.settle howns events index

/-- The index of a channel says whether the poller knows it. -/
theorem Known.index_step (h : Known fd s) {a : ι × Op} (hok : (s.step fd a).failed = false)
    (ch : ι) {told : Bool} (htold : s.index ch ≠ .kNew ↔ told = true) :
    (s.step fd a).index ch ≠ .kNew ↔ toldBy ch told a = true := by
  have hrunning : ¬ s.failed = true := by
    intro hf
    rw [step, if_pos hf, hf] at hok
    cases hok
  rw [step, if_neg hrunning] at hok ⊢
  cases hcall : s.call fd a.1 a.2 with
  | none =>
    rw [hcall] at hok
    cases hok
  | some s' =>
    rw [Option.getD_some]
    unfold toldBy
    -- another channel keeps its index
    by_cases hch : a.1 = ch
    · rw [if_pos hch]
      rcases h.call_eq a.1 a.2 hcall with ⟨rfl, hop⟩ | ⟨-, events, index, rfl, hnew, hop⟩
      · rw [hop]
        exact htold
      · have hindex : (settled fd s a.1 events index).index ch = index := by
          rw [← hch]
          exact Function.update_self _ _ _
        rw [hindex, ne_eq, hnew]
        cases hcase : a.2 <;> simp_all
    · rw [if_neg hch]
      rcases h.call_eq a.1 a.2 hcall with ⟨rfl, -⟩ | ⟨-, events, index, rfl, -⟩
      · exact htold
      · have hindex : (settled fd s a.1 events index).index ch = s.index ch :=
          Function.update_of_ne (Ne.symm hch) _ _
        rw [hindex]
        exact htold

/-- A run that has not failed had not failed before its last step. -/
theorem failed_of_step {a : ι × Op} (hok : (s.step fd a).failed = false) : s.failed = false := by
  by_contra hf
  rw [Bool.not_eq_false] at hf
  rw [step, if_pos hf, hf] at hok
  cases hok

theorem known_run (fd : ι → Int) (as : List (ι × Op)) : Known fd (Runs.run (step fd) new as) :=
  (Runs.always_of_step known_step known_new as).last

theorem index_run (fd : ι → Int) (as : List (ι × Op)) (ch : ι)
    (hok : (Runs.run (step fd) new as).failed = false) :
    (Runs.run (step fd) new as).index ch ≠ .kNew ↔ told ch as = true := by
  induction as using List.reverseRecOn with
  | nil => simp [told, new]
  | append_singleton as a ih =>
    rw [Runs.run_append, Runs.run_cons, Runs.run_nil] at hok ⊢
    rw [told_concat]
    exact (known_run fd as).index_step hok ch (ih (failed_of_step hok))

/-- The two calls in any state. -/
theorem Known.tornDown_iff (h : Known fd s) {ch : ι} (hfd : 0 ≤ fd ch) :
    TornDown fd s ch ↔ s.index ch ≠ .kNew := by
  have hdisabled := h.setChannel ch (s.channel ch).disableAll
  have hnone : ((s.setChannel ch (s.channel ch).disableAll).channel ch).events = kNoneEvent := by
    show (Function.update s.channel ch _ ch).events = _
    rw [Function.update_self]
    rfl
  -- after `disableAll` only the index decides
  have hremove : (s.call fd ch .disableAll >>= fun s => s.call fd ch .remove)
      = if s.index ch ≠ .kNew
        then some (settled fd (s.setChannel ch (s.channel ch).disableAll) ch kNoneEvent .kNew)
        else none := by
    have heq := hdisabled.remove_eq ch
    simp only [hnone, and_true] at heq
    exact heq
  rw [TornDown, hremove]
  by_cases hnew : s.index ch = .kNew
  · simp [hnew]
  · rw [if_pos hnew]
    refine ⟨fun _ => hnew, fun _ => ⟨_, rfl, ?_, ?_, ?_, fun events => ?_⟩⟩
    · exact Function.update_self _ _ _
    · exact Function.update_self _ _ _
    · exact Function.update_self _ _ _
    · -- the descriptor is free for another channel
      have howns := (hdisabled.owns_iff ch).mpr fun hk => absurd hk hnew
      have hsettled := hdisabled.settle howns kNoneEvent .kNew
      rw [call, hsettled.updateChannel_eq, if_pos ⟨hfd, fun _ => Function.update_self _ _ _⟩]
      rfl

/-- **Taking a channel down**, after every run without a failed assertion: it is legal exactly
when the poller knows the channel. -/
theorem tornDown_iff_told (fd : ι → Int) (as : List (ι × Op)) (ch : ι) (hfd : 0 ≤ fd ch)
    (hok : (Runs.run (step fd) new as).failed = false) :
    TornDown fd (Runs.run (step fd) new as) ch ↔ told ch as = true :=
  ((known_run fd as).tornDown_iff hfd).trans (index_run fd as ch hok)

/-- A channel that was read and is not any more. -/
theorem tornDown_disabled :
    TornDown (fun _ => 5)
      (Runs.run (step fun _ => 5) (new : EpollPoller Unit)
        [((), .enableReading), ((), .disableReading)]) () :=
  (tornDown_iff_told (fun _ => 5) [((), .enableReading), ((), .disableReading)] () (by decide)
    rfl).mpr rfl

/-- A channel that was never enabled, as that of an acceptor which does not listen. -/
theorem not_tornDown_new : ¬ TornDown (fun _ => 5) (new : EpollPoller Unit) () := by
  rintro ⟨s', hcall, -⟩
  have hnone : ((new : EpollPoller Unit).call (fun _ => 5) () .disableAll >>=
      fun s => s.call (fun _ => 5) () .remove) = none := rfl
  rw [hnone] at hcall
  cases hcall

end EpollPoller

end XiaoNet
