import Mathlib.Data.List.Count
import Mathlib.Data.List.Perm.Basic
import XiaoNet.Net.Acceptor

/-!
# The descriptors of an acceptor

Between two system calls of the acceptor, other threads may get the number that `idleFd_` still
holds. Still the acceptor closes nothing that is theirs, and loses nothing of its own.

- `Has`: what the acceptor has open, from where its code is and what `idleFd_` and `sock_` hold;
  `Owned`: this is what the process has recorded.
- `Room`: an undisturbed acceptor has a descriptor for the second `accept` and for `/dev/null`.
- `fds_always_safe`: all of it, along every run.
-/

namespace XiaoNet

/-! ## The table -/

namespace FdTable

variable {t : FdTable} {fd : Nat}

theorem owner_set (t : FdTable) (fd n : Nat) (who : Option Opener) :
    (t.set fd who).owner n = if n = fd then who else t.owner n := rfl

@[simp] theorem owner_set_self (t : FdTable) (fd : Nat) (who : Option Opener) :
    (t.set fd who).owner fd = who := if_pos rfl

theorem owner_set_ne {n : Nat} (t : FdTable) (who : Option Opener) (hne : n ≠ fd) :
    (t.set fd who).owner n = t.owner n := if_neg hne

theorem lowest_spec (h : t.lowest = some fd) : fd < t.limit ∧ t.owner fd = none := by
  have hmem := List.mem_of_find?_eq_some h
  have hfree := List.find?_some h
  exact ⟨List.mem_range.mp hmem, Option.isNone_iff_eq_none.mp hfree⟩

theorem lowest_ne_none (hfd : fd < t.limit) (hfree : t.owner fd = none) : t.lowest ≠ none := by
  intro h
  have hopen := List.find?_eq_none.mp h fd (List.mem_range.mpr hfd)
  exact hopen (by rw [hfree]; rfl)

end FdTable

namespace Acceptor

/-- `idleFd_` is open. -/
def Pc.reserve : Pc → Bool
  | .waiting | .newsock _ _ | .emfile | .removed => true
  | _ => false

/-- What the acceptor has open where its code is. -/
def Has (s : Acceptor) (fd : Nat) : Opener → Prop
  | .sock => fd = s.sockFd ∧ s.pc ≠ .destroyed
  | .idle => s.idleFd = some fd ∧ s.pc.reserve = true
  | .accepted conn =>
    s.pc = .newsock fd conn ∨ (s.pc = .shed ∧ s.idleFd = some fd ∧ s.held = [conn])
  | .other => False

def Owned (s : Acceptor) : Prop :=
  ∀ fd who, who ≠ .other → (s.fds.owner fd = some who ↔ s.Has fd who)

/-- The connections whose descriptor the acceptor has. -/
def Holding (s : Acceptor) : Prop :=
  match s.pc with
  | .newsock _ conn => s.held = [conn]
  | .shed => (s.idleFd = none ∧ s.held = []) ∨ ∃ fd conn, s.idleFd = some fd ∧ s.held = [conn]
  | _ => s.held = []

/-- Where the connections are that have arrived. -/
def places (s : Acceptor) : List Nat := s.backlog ++ s.held ++ s.given ++ s.shut ++ s.gone

/-- There is a descriptor for what the code does next. -/
def Room (s : Acceptor) : Prop :=
  match s.pc with
  | .idleClosed | .shedClosed => ∃ fd, fd < s.fds.limit ∧ s.fds.owner fd = none
  | .shed => ∃ fd, fd < s.fds.limit ∧ (s.idleFd = some fd ∨ s.fds.owner fd = none)
  | .destructed | .destroyed => True
  | _ => ∃ fd, fd < s.fds.limit ∧ s.idleFd = some fd

/-- What the acceptor never gets wrong. -/
structure Safe (s : Acceptor) : Prop where
  /-- It closes only what it has opened itself, and nothing twice. -/
  closes : ∀ who ∈ s.closes, who ≠ none ∧ who ≠ some .other
  /-- Every connection is in one place, once. -/
  accounted : s.places.Perm (List.range s.arrived)
  /-- Back in the loop it has its socket and the reserve and nothing else open. -/
  waiting : s.pc = .waiting → s.held = [] ∧ ∀ fd who, s.fds.owner fd = some who →
    who = .other ∨ (who = .sock ∧ fd = s.sockFd) ∨ (who = .idle ∧ s.idleFd = some fd)
  /-- In the end it has nothing open. -/
  destroyed : s.pc = .destroyed → ∀ fd who, s.fds.owner fd = some who → who = .other
  /-- Undisturbed it keeps the reserve, and has a descriptor for what it is to shed. -/
  reserve : s.disturbed = false →
    s.refused = 0 ∧ (s.pc = .waiting → ∃ fd, s.idleFd = some fd ∧ s.fds.owner fd = some .idle)

/-! ## The invariant -/

structure Inv (s : Acceptor) : Prop where
  owned : s.Owned
  holding : s.Holding
  closes : ∀ who ∈ s.closes, who ≠ none ∧ who ≠ some .other
  accounted : s.places.Perm (List.range s.arrived)
  room : s.disturbed = false → s.Room
  refused : s.disturbed = false → s.refused = 0

variable {s s' : Acceptor}

theorem Inv.safe (h : Inv s) : Safe s where
  closes := h.closes
  accounted := h.accounted
  waiting := by
    intro hpc
    have hholding := h.holding
    rw [Holding, hpc] at hholding
    refine ⟨hholding, fun fd who howner => ?_⟩
    -- what is not another's the acceptor has, and in the loop that is two descriptors
    by_cases hother : who = .other
    · exact .inl hother
    have hhas := (h.owned fd who hother).mp howner
    cases who with
    | sock => exact .inr (.inl ⟨rfl, hhas.1⟩)
    | idle => exact .inr (.inr ⟨rfl, hhas.1⟩)
    | accepted conn => simp [Has, hpc] at hhas
    | other => exact absurd rfl hother
  destroyed := by
    intro hpc fd who howner
    by_contra hother
    have hhas := (h.owned fd who hother).mp howner
    cases who with
    | sock => exact hhas.2 hpc
    | idle => simp [Has, hpc, Pc.reserve] at hhas
    | accepted conn => simp [Has, hpc] at hhas
    | other => exact hother rfl
  reserve := by
    intro hdis
    refine ⟨h.refused hdis, fun hpc => ?_⟩
    have hroom := h.room hdis
    rw [Room, hpc] at hroom
    obtain ⟨fd, -, hidle⟩ := hroom
    refine ⟨fd, hidle, (h.owned fd .idle (by simp)).mpr ⟨hidle, ?_⟩⟩
    rw [hpc]
    rfl

/-- One descriptor is opened or closed. -/
theorem Owned.set {fd : Nat} (h : s.Owned) (who : Option Opener) (hfds : s'.fds = s.fds.set fd who)
    (hat : ∀ w, w ≠ .other → (who = some w ↔ s'.Has fd w))
    (hrest : ∀ n w, n ≠ fd → (s'.Has n w ↔ s.Has n w)) : s'.Owned := by
  intro n w hw
  rw [hfds]
  by_cases hn : n = fd
  · subst hn
    rw [FdTable.owner_set_self]
    exact hat w hw
  · rw [FdTable.owner_set_ne _ _ hn, hrest n w hn]
    exact h n w hw

/-- Nobody opens or closes a descriptor. -/
theorem Owned.same (h : s.Owned) (hfds : s'.fds = s.fds)
    (hhas : ∀ n w, s'.Has n w ↔ s.Has n w) : s'.Owned := by
  intro n w hw
  rw [hfds, hhas n w]
  exact h n w hw

/-! ## The system calls -/

theorem places_perm_of_count (h : ∀ a, s'.places.count a = s.places.count a) :
    s'.places.Perm s.places := List.perm_iff_count.mpr h

/-- What `accept` leaves when it returns the descriptor of a connection. -/
def taken (s : Acceptor) (fd conn : Nat) (backlog : List Nat) : Acceptor :=
  { s with
    fds := s.fds.set fd (some (.accepted conn))
    backlog := backlog
    held := s.held ++ [conn] }

theorem accept_cases (s : Acceptor) (fails : Bool) :
    (∃ fd conn backlog, s.fds.lowest = some fd ∧ s.backlog = conn :: backlog ∧
      s.accept fails = .ok (fd, conn, s.taken fd conn backlog)) ∨
    ∃ errno, s.accept fails = .error errno ∧ (errno = .EMFILE → s.fds.lowest = none) := by
  unfold accept
  by_cases hfails : fails = true
  · rw [if_pos hfails]
    exact .inr ⟨.other, rfl, by rintro ⟨⟩⟩
  · rw [if_neg hfails]
    cases hlow : s.fds.lowest with
    | none => exact .inr ⟨.EMFILE, rfl, fun _ => rfl⟩
    | some fd =>
      cases hback : s.backlog with
      | nil => exact .inr ⟨.EAGAIN, rfl, by rintro ⟨⟩⟩
      | cons conn backlog => exact .inl ⟨fd, conn, backlog, rfl, rfl, rfl⟩

theorem inv_readCallback (h : Inv s) (hpc : s.pc = .waiting) (fails : Bool) :
    Inv (s.readCallback fails) := by
  obtain ⟨howned, hholding, hcloses, hplaces, hroom, hrefused⟩ := h
  rw [Holding, hpc] at hholding
  unfold readCallback
  rcases accept_cases s fails with ⟨fd, conn, backlog, hlow, hback, heq⟩ | ⟨errno, heq, -⟩
  · rw [heq]
    obtain ⟨hlt, hfree⟩ := FdTable.lowest_spec hlow
    -- the new descriptor was free, so the acceptor had nothing open there
    have hnot : ∀ w, ¬ (w ≠ .other ∧ s.Has fd w) := by
      rintro w ⟨hw, hhas⟩
      have howner := (howned fd w hw).mpr hhas
      rw [hfree] at howner
      cases howner
    refine ⟨howned.set (some (.accepted conn)) rfl ?_ ?_, ?_, hcloses, ?_, ?_, hrefused⟩
    · intro w hw
      cases w with
      | sock =>
        refine iff_of_false (by simp) fun hhas => hnot .sock ⟨by simp, hhas.1, ?_⟩
        simp [hpc]
      | idle =>
        refine iff_of_false (by simp) fun hhas => hnot .idle ⟨by simp, hhas.1, ?_⟩
        simp [hpc, Pc.reserve]
      | accepted c => simp [Has, eq_comm]
      | other => exact absurd rfl hw
    · intro n w hn
      cases w with
      | sock => simp [Has, hpc, taken]
      | idle => simp [Has, hpc, Pc.reserve, taken]
      | accepted c => simp [Has, hpc, Ne.symm hn]
      | other => exact Iff.rfl
    · show s.held ++ [conn] = [conn]
      rw [hholding]
      rfl
    · -- the connection moves from the backlog to those that are held
      refine List.Perm.trans (places_perm_of_count fun a => ?_) hplaces
      simp [places, taken, hback, List.count_append, List.count_cons]
      omega
    · intro hdis
      have hold := hroom hdis
      rw [Room, hpc] at hold
      exact hold
  · rw [heq]
    dsimp only
    -- without a descriptor the reserve is given up next, else nothing has happened
    by_cases hmfile : errno = .EMFILE
    · rw [if_pos hmfile]
      refine ⟨howned.same rfl ?_, hholding, hcloses, hplaces, ?_, hrefused⟩
      · intro n w
        cases w with
        | sock => simp [Has, hpc]
        | idle => simp [Has, hpc, Pc.reserve]
        | accepted c => simp [Has, hpc]
        | other => exact Iff.rfl
      · intro hdis
        have hold := hroom hdis
        rw [Room, hpc] at hold
        exact hold
    · rw [if_neg hmfile]
      refine ⟨howned, ?_, hcloses, hplaces, hroom, hrefused⟩
      rw [Holding, hpc]
      exact hholding

theorem close_own {fd : Nat} {who : Opener} (h : s.fds.owner fd = some who)
    (hconn : ∀ conn, who ≠ .accepted conn) :
    s.close (some fd) =
      { s with fds := s.fds.set fd none, closes := s.closes ++ [some who] } := by
  cases who with
  | accepted conn => exact absurd rfl (hconn conn)
  | sock => simp [close, h]
  | idle => simp [close, h]
  | other => simp [close, h]

theorem close_accepted {fd conn : Nat} (h : s.fds.owner fd = some (.accepted conn)) :
    s.close (some fd) =
      { s with
        fds := s.fds.set fd none
        closes := s.closes ++ [some (.accepted conn)]
        shut := s.shut ++ [conn]
        held := s.held.erase conn } := by
  simp [close, h]

theorem closes_concat {who : Opener} (h : ∀ w ∈ s.closes, w ≠ none ∧ w ≠ some .other)
    (hwho : who ≠ .other) : ∀ w ∈ s.closes ++ [some who], w ≠ none ∧ w ≠ some .other := by
  intro w hw
  rcases List.mem_append.mp hw with hold | hnew
  · exact h w hold
  · rw [List.mem_singleton.mp hnew]
    simpa using hwho

/-- The reserve is closed, to accept what is to be shed or for good. -/
theorem inv_closeIdle (h : Inv s) {pc : Pc}
    (hpc : (s.pc = .emfile ∧ pc = .idleClosed) ∨ (s.pc = .removed ∧ pc = .destructed)) :
    Inv { s.close s.idleFd with pc := pc } := by
  obtain ⟨howned, hholding, hcloses, hplaces, hroom, hrefused⟩ := h
  have hheld : s.held = [] := by
    rcases hpc with ⟨hpc, -⟩ | ⟨hpc, -⟩ <;> · rw [Holding, hpc] at hholding; exact hholding
  have hroom' : s.disturbed = false → ∃ fd, fd < s.fds.limit ∧ s.idleFd = some fd := by
    intro hdis
    have hold := hroom hdis
    rcases hpc with ⟨hpc, -⟩ | ⟨hpc, -⟩ <;> · rw [Room, hpc] at hold; exact hold
  -- but for the reserve the acceptor has what it had
  have hhas : ∀ n w, w ≠ .idle →
      (Has { s with pc := pc } n w ↔ s.Has n w) := by
    intro n w hw
    rcases hpc with ⟨hpc, rfl⟩ | ⟨hpc, rfl⟩ <;> cases w <;> simp_all [Has]
  have hidle : ∀ n, ¬ Has { s with pc := pc } n .idle := by
    rcases hpc with ⟨-, rfl⟩ | ⟨-, rfl⟩ <;> simp [Has, Pc.reserve]
  have hholding' : ∀ t : Acceptor, t.pc = pc → t.held = [] → t.Holding := by
    intro t ht hheld'
    rcases hpc with ⟨-, rfl⟩ | ⟨-, rfl⟩ <;> · rw [Holding, ht]; exact hheld'
  cases hfd : s.idleFd with
  | none =>
    -- there was no reserve, and closing -1 does nothing
    refine ⟨howned.same rfl fun n w => ?_, hholding' _ rfl hheld, hcloses, hplaces, ?_, hrefused⟩
    · by_cases hw : w = .idle
      · subst hw
        exact iff_of_false (hidle n) fun hold => by simp [Has, hfd] at hold
      · exact hhas n w hw
    · intro hdis
      obtain ⟨fd, -, hfd'⟩ := hroom' hdis
      rw [hfd] at hfd'
      cases hfd'
  | some fd =>
    -- the reserve is closed, and its number is free for what comes next
    have hown : s.fds.owner fd = some .idle := by
      refine (howned fd .idle (by simp)).mpr ⟨hfd, ?_⟩
      rcases hpc with ⟨hpc, -⟩ | ⟨hpc, -⟩ <;> · rw [hpc]; rfl
    rw [close_own hown (by simp)]
    refine ⟨howned.set none rfl ?_ ?_, hholding' _ rfl hheld,
      closes_concat hcloses (by simp), hplaces, ?_, hrefused⟩
    · intro w hw
      refine iff_of_false (by simp) fun hnow => ?_
      by_cases hi : w = .idle
      · subst hi
        exact hidle fd hnow
      · have hold := (howned fd w hw).mpr ((hhas fd w hi).mp hnow)
        rw [hown] at hold
        exact hi (Option.some.inj hold).symm
    · intro n w hn
      by_cases hw : w = .idle
      · subst hw
        refine iff_of_false (hidle n) fun hold => hn ?_
        exact (Option.some.inj (hfd.symm.trans hold.1)).symm
      · exact hhas n w hw
    · intro hdis
      obtain ⟨m, hm, hfd'⟩ := hroom' hdis
      obtain rfl : fd = m := Option.some.inj (hfd.symm.trans hfd')
      rcases hpc with ⟨-, rfl⟩ | ⟨-, rfl⟩
      · exact ⟨fd, hm, FdTable.owner_set_self _ _ _⟩
      · exact trivial

/-- A connection's descriptor is closed or handed over. -/
theorem Owned.letGo {fd conn : Nat} {who : Option Opener} (h : s.Owned)
    (hpc : s.pc = .newsock fd conn ∨ s.pc = .shed ∧ s.idleFd = some fd ∧ s.held = [conn])
    (hwho : who = none ∨ who = some .other) (hfds : s'.fds = s.fds.set fd who)
    (hsock : s'.sockFd = s.sockFd) (hidleFd : s'.idleFd = s.idleFd)
    (hpc' : s'.pc = .waiting ∧ s.pc ≠ .shed ∨ s'.pc = .shedClosed ∧ s.pc = .shed) : s'.Owned := by
  have hown : s.fds.owner fd = some (.accepted conn) := (h fd _ (by simp)).mpr hpc
  have hhas : ∀ n w, (∀ c, w ≠ .accepted c) → (s'.Has n w ↔ s.Has n w) := by
    intro n w hw
    cases w with
    | sock => rcases hpc with hp | ⟨hp, -⟩ <;> rcases hpc' with ⟨hq, -⟩ | ⟨hq, -⟩ <;>
        simp [Has, hp, hq, hsock]
    | idle => rcases hpc with hp | ⟨hp, -⟩ <;> rcases hpc' with ⟨hq, hr⟩ | ⟨hq, hr⟩ <;>
        simp_all [Has, Pc.reserve]
    | accepted c => exact absurd rfl (hw c)
    | other => exact Iff.rfl
  -- no connection is held any more
  have hconn : ∀ n c, ¬ s'.Has n (.accepted c) := by
    intro n c
    rcases hpc' with ⟨hq, -⟩ | ⟨hq, -⟩ <;> simp [Has, hq]
  refine h.set who hfds ?_ ?_
  · -- at the descriptor itself nothing of the acceptor's is left
    intro w hw
    refine iff_of_false (fun hsome => ?_) fun hnow => ?_
    · rcases hwho with rfl | rfl
      · cases hsome
      · exact hw (Option.some.inj hsome).symm
    · by_cases hc : ∃ c, w = .accepted c
      · obtain ⟨c, rfl⟩ := hc
        exact hconn fd c hnow
      · have hne : ∀ c, w ≠ .accepted c := fun c heq => hc ⟨c, heq⟩
        have hold := (h fd w hw).mpr ((hhas fd w hne).mp hnow)
        rw [hown] at hold
        exact hne conn (Option.some.inj hold).symm
  · -- the other descriptors are those they were
    intro n w hn
    by_cases hc : ∃ c, w = .accepted c
    · obtain ⟨c, rfl⟩ := hc
      refine iff_of_false (hconn n c) fun hold => hn ?_
      rcases hpc with hp | ⟨hp, hfd, hheld⟩
      · rcases hold with hp' | ⟨hp', -⟩
        · rw [hp] at hp'
          exact (Pc.newsock.inj hp').1.symm
        · rw [hp] at hp'
          cases hp'
      · rcases hold with hp' | ⟨-, hfd', -⟩
        · rw [hp] at hp'
          cases hp'
        · exact (Option.some.inj (hfd.symm.trans hfd')).symm
    · exact hhas n w fun c heq => hc ⟨c, heq⟩

theorem inv_handOver (h : Inv s) {fd conn : Nat} (hpc : s.pc = .newsock fd conn) :
    Inv { s.handOver fd conn with pc := .waiting } := by
  have howned := h.owned
  have hheld : s.held = [conn] := by
    have hholding := h.holding
    rw [Holding, hpc] at hholding
    exact hholding
  have hown : s.fds.owner fd = some (.accepted conn) := (howned fd _ (by simp)).mpr (.inl hpc)
  have hroom : s.disturbed = false → ∃ m, m < s.fds.limit ∧ s.idleFd = some m := by
    intro hdis
    have hold := h.room hdis
    rw [Room, hpc] at hold
    exact hold
  have hpc' : Pc.waiting = .waiting ∧ s.pc ≠ .shed := ⟨rfl, by rw [hpc]; rintro ⟨⟩⟩
  unfold handOver
  by_cases hcallback : s.callback = true
  · -- the callback gets the descriptor: it is another's from here on
    rw [if_pos hcallback]
    refine ⟨howned.letGo (.inl hpc) (.inr rfl) rfl rfl rfl (.inl hpc'), ?_, h.closes, ?_, hroom,
      h.refused⟩
    · show s.held.erase conn = []
      rw [hheld, List.erase_cons_head]
    · refine List.Perm.trans (places_perm_of_count fun a => ?_) h.accounted
      simp only [places, hheld, List.erase_cons_head, List.count_append, List.count_nil]
      omega
  · -- nobody wants it, and it is closed
    rw [if_neg hcallback, close_accepted hown]
    refine ⟨howned.letGo (.inl hpc) (.inl rfl) rfl rfl rfl (.inl hpc'), ?_,
      closes_concat h.closes (by simp), ?_, hroom, h.refused⟩
    · show s.held.erase conn = []
      rw [hheld, List.erase_cons_head]
    · refine List.Perm.trans (places_perm_of_count fun a => ?_) h.accounted
      simp only [places, hheld, List.erase_cons_head, List.count_append, List.count_nil]
      omega

/-- `accept` finds a descriptor unless another thread has taken the one that was freed. -/
theorem inv_acceptIdle (h : Inv s) (hpc : s.pc = .idleClosed) (fails : Bool) :
    Inv { s.acceptIdle fails with pc := .shed } := by
  obtain ⟨howned, hholding, hcloses, hplaces, hroom, hrefused⟩ := h
  rw [Holding, hpc] at hholding
  have hroom' : s.disturbed = false → ∃ m, m < s.fds.limit ∧ s.fds.owner m = none := by
    intro hdis
    have hold := hroom hdis
    rw [Room, hpc] at hold
    exact hold
  unfold acceptIdle
  rcases accept_cases s fails with ⟨fd, conn, backlog, hlow, hback, heq⟩ | ⟨errno, heq, hmfile⟩
  · -- the connection to be shed is held, in place of the reserve
    rw [heq]
    obtain ⟨hlt, hfree⟩ := FdTable.lowest_spec hlow
    refine ⟨howned.set (some (.accepted conn)) rfl ?_ ?_, ?_, hcloses, ?_, ?_, hrefused⟩
    · intro w hw
      cases w with
      | sock =>
        refine iff_of_false (by simp) fun hhas => ?_
        have hold := (howned fd .sock (by simp)).mpr ⟨hhas.1, by simp [hpc]⟩
        rw [hfree] at hold
        cases hold
      | idle => simp [Has, Pc.reserve]
      | accepted c => simp [Has, taken, hholding]
      | other => exact absurd rfl hw
    · intro n w hn
      cases w with
      | sock => simp [Has, hpc, taken]
      | idle => simp [Has, hpc, Pc.reserve]
      | accepted c => simp [Has, hpc, Ne.symm hn]
      | other => exact Iff.rfl
    · refine .inr ⟨fd, conn, rfl, ?_⟩
      show s.held ++ [conn] = [conn]
      rw [hholding]
      rfl
    · refine List.Perm.trans (places_perm_of_count fun a => ?_) hplaces
      simp [places, taken, hback, List.count_append, List.count_cons]
      omega
    · exact fun _ => ⟨fd, hlt, .inl rfl⟩
  · rw [heq]
    -- nothing was accepted, and not for a lack of descriptors unless another thread took the free
    -- one
    refine ⟨howned.same rfl fun n w => ?_, .inl ⟨rfl, hholding⟩, hcloses, hplaces, ?_, ?_⟩
    · cases w with
      | sock => simp [Has, hpc]
      | idle => simp [Has, hpc, Pc.reserve]
      | accepted c => simp [Has, hpc]
      | other => exact Iff.rfl
    · intro hdis
      obtain ⟨m, hm, hfree⟩ := hroom' hdis
      exact ⟨m, hm, .inr hfree⟩
    · intro hdis
      obtain ⟨m, hm, hfree⟩ := hroom' hdis
      have hne : errno ≠ .EMFILE := fun heq => FdTable.lowest_ne_none hm hfree (hmfile heq)
      show s.refused + (if errno = .EMFILE then 1 else 0) = 0
      rw [if_neg hne, hrefused hdis]

/-- What `accept` has returned is closed: a connection, or nothing. -/
theorem inv_closeShed (h : Inv s) (hpc : s.pc = .shed) :
    Inv { s.close s.idleFd with pc := .shedClosed } := by
  have hholding := h.holding
  have hroom : s.disturbed = false →
      ∃ m, m < s.fds.limit ∧ (s.idleFd = some m ∨ s.fds.owner m = none) := by
    intro hdis
    have hold := h.room hdis
    rw [Room, hpc] at hold
    exact hold
  rw [Holding, hpc] at hholding
  -- the second `accept` has failed, or what it accepted is closed now
  rcases hholding with ⟨hfd, hheld⟩ | ⟨fd, conn, hfd, hheld⟩
  · rw [hfd]
    refine ⟨h.owned.same rfl fun n w => ?_, hheld, h.closes, h.accounted, ?_, h.refused⟩
    · cases w with
      | sock => simp [Has, hpc, close]
      | idle => simp [Has, hpc, Pc.reserve]
      | accepted c => simp [Has, hpc, hfd]
      | other => exact Iff.rfl
    · intro hdis
      obtain ⟨m, hm, hidle | hfree⟩ := hroom hdis
      · rw [hfd] at hidle
        cases hidle
      · exact ⟨m, hm, hfree⟩
  · have hcase : s.pc = .newsock fd conn ∨ s.pc = .shed ∧ s.idleFd = some fd ∧ s.held = [conn] :=
      .inr ⟨hpc, hfd, hheld⟩
    have hown : s.fds.owner fd = some (.accepted conn) := (h.owned fd _ (by simp)).mpr hcase
    rw [hfd, close_accepted hown]
    refine ⟨h.owned.letGo hcase (.inl rfl) rfl rfl rfl (.inr ⟨rfl, hpc⟩), ?_,
      closes_concat h.closes (by simp), ?_, ?_, h.refused⟩
    · show s.held.erase conn = []
      rw [hheld, List.erase_cons_head]
    · refine List.Perm.trans (places_perm_of_count fun a => ?_) h.accounted
      simp only [places, hheld, List.erase_cons_head, List.count_append, List.count_nil]
      omega
    · intro hdis
      obtain ⟨m, hm, hidle | hfree⟩ := hroom hdis
      · obtain rfl : fd = m := Option.some.inj (hfd.symm.trans hidle)
        exact ⟨fd, hm, FdTable.owner_set_self _ _ _⟩
      · refine ⟨m, hm, ?_⟩
        show (s.fds.set fd none).owner m = none
        rw [FdTable.owner_set, hfree, ite_self]

theorem inv_openIdle (h : Inv s) (hpc : s.pc = .shedClosed) (fails : Bool) :
    Inv { s.openIdle fails with pc := .waiting } := by
  obtain ⟨howned, hholding, hcloses, hplaces, hroom, hrefused⟩ := h
  rw [Holding, hpc] at hholding
  -- without a reserve the acceptor has its socket
  have hnone : ∀ t : Acceptor, t.fds = s.fds → t.idleFd = none → t.sockFd = s.sockFd →
      t.pc = .waiting → t.Owned := by
    intro t hfds hidle hsock hpc'
    refine howned.same hfds fun n w => ?_
    cases w with
    | sock => simp [Has, hpc, hpc', hsock]
    | idle => simp [Has, hpc, hidle, Pc.reserve]
    | accepted c => simp [Has, hpc, hpc']
    | other => exact Iff.rfl
  unfold openIdle
  by_cases hfails : fails = true
  · rw [if_pos hfails]
    exact ⟨hnone _ rfl rfl rfl rfl, hholding, hcloses, hplaces, by rintro ⟨⟩, by rintro ⟨⟩⟩
  · rw [if_neg hfails]
    cases hlow : s.fds.lowest with
    | none =>
      -- there is no free descriptor, which an undisturbed acceptor never sees
      refine ⟨hnone _ rfl rfl rfl rfl, hholding, hcloses, hplaces, fun hdis => ?_, hrefused⟩
      have hold := hroom hdis
      rw [Room, hpc] at hold
      obtain ⟨m, hm, hfree⟩ := hold
      exact absurd hlow (FdTable.lowest_ne_none hm hfree)
    | some fd =>
      -- the reserve is back
      obtain ⟨hlt, hfree⟩ := FdTable.lowest_spec hlow
      refine ⟨howned.set (some .idle) rfl ?_ ?_, hholding, hcloses, hplaces,
        fun _ => ⟨fd, hlt, rfl⟩, hrefused⟩
      · intro w hw
        cases w with
        | sock =>
          refine iff_of_false (by simp) fun hhas => ?_
          have hold := (howned fd .sock (by simp)).mpr ⟨hhas.1, by simp [hpc]⟩
          rw [hfree] at hold
          cases hold
        | idle => simp [Has, Pc.reserve]
        | accepted c => simp [Has]
        | other => exact absurd rfl hw
      · intro n w hn
        cases w with
        | sock => simp [Has, hpc]
        | idle => simp [Has, hpc, Pc.reserve, Ne.symm hn]
        | accepted c => simp [Has, hpc]
        | other => exact Iff.rfl

theorem inv_closeSock (h : Inv s) (hpc : s.pc = .destructed) :
    Inv { s.close (some s.sockFd) with
      pc := .destroyed, backlog := [], gone := s.gone ++ s.backlog } := by
  obtain ⟨howned, hholding, hcloses, hplaces, -, hrefused⟩ := h
  rw [Holding, hpc] at hholding
  have hown : s.fds.owner s.sockFd = some .sock := (howned _ _ (by simp)).mpr ⟨rfl, by simp [hpc]⟩
  rw [close_own hown (by simp)]
  refine ⟨howned.set none rfl ?_ ?_, hholding, closes_concat hcloses (by simp), ?_,
    fun _ => trivial, hrefused⟩
  · intro w hw
    cases w with
    | sock => simp [Has]
    | idle => simp [Has, Pc.reserve]
    | accepted c => simp [Has]
    | other => exact absurd rfl hw
  · intro n w hn
    cases w with
    | sock => exact iff_of_false (by simp [Has]) fun hold => hn hold.1
    | idle => simp [Has, hpc, Pc.reserve]
    | accepted c => simp [Has, hpc]
    | other => exact Iff.rfl
  · refine List.Perm.trans (places_perm_of_count fun a => ?_) hplaces
    simp only [places, List.count_append, List.count_nil]
    omega

theorem inv_next (h : Inv s) (fails : Bool) : Inv (s.next fails) := by
  unfold next
  split
  next hpc => exact inv_readCallback h hpc fails
  next hpc => exact inv_handOver h hpc
  next hpc => exact inv_closeIdle h (.inl ⟨hpc, rfl⟩)
  next hpc => exact inv_acceptIdle h hpc fails
  next hpc => exact inv_closeShed h hpc
  next hpc => exact inv_openIdle h hpc fails
  next hpc => exact inv_closeIdle h (.inr ⟨hpc, rfl⟩)
  next hpc => exact inv_closeSock h hpc
  next => exact h

/-! ## The others -/

/-- The acceptor stays where it is. -/
theorem Has.congr (hpc : s'.pc = s.pc) (hidle : s'.idleFd = s.idleFd)
    (hsock : s'.sockFd = s.sockFd) (hheld : s'.held = s.held) (n : Nat) (w : Opener) :
    s'.Has n w ↔ s.Has n w := by
  cases w with
  | sock => rw [Has, Has, hpc, hsock]
  | idle => rw [Has, Has, hpc, hidle]
  | accepted c => rw [Has, Has, hpc, hidle, hheld]
  | other => exact Iff.rfl

theorem inv_destroy (h : Inv s) (hpc : s.pc = .waiting) : Inv { s with pc := .removed } := by
  obtain ⟨howned, hholding, hcloses, hplaces, hroom, hrefused⟩ := h
  rw [Holding, hpc] at hholding
  refine ⟨howned.same rfl fun n w => ?_, hholding, hcloses, hplaces, fun hdis => ?_, hrefused⟩
  · cases w with
    | sock => simp [Has, hpc]
    | idle => simp [Has, hpc, Pc.reserve]
    | accepted c => simp [Has, hpc]
    | other => exact Iff.rfl
  · have hold := hroom hdis
    rw [Room, hpc] at hold
    exact hold

/-- The kernel changes the backlog. -/
theorem inv_backlog (h : Inv s) (hpc : s'.pc = s.pc) (hidle : s'.idleFd = s.idleFd)
    (hsock : s'.sockFd = s.sockFd) (hheld : s'.held = s.held) (hfds : s'.fds = s.fds)
    (hcloses : s'.closes = s.closes) (hrefused : s'.refused = s.refused)
    (hdis : s'.disturbed = s.disturbed) (hplaces : s'.places.Perm (List.range s'.arrived)) :
    Inv s' where
  owned := h.owned.same hfds (Has.congr hpc hidle hsock hheld)
  holding := by
    have hold := h.holding
    rw [Holding, ← hpc, ← hidle, ← hheld] at hold
    exact hold
  closes := by
    rw [hcloses]
    exact h.closes
  accounted := hplaces
  room := by
    intro hd
    have hold := h.room (hdis ▸ hd)
    rw [Room, ← hpc, ← hidle, ← hfds] at hold
    exact hold
  refused := by
    rw [hdis, hrefused]
    exact h.refused

/-- A thread opens or closes a descriptor of its own. -/
theorem inv_foreign (h : Inv s) {fd : Nat} {who : Option Opener} {disturbed : Bool}
    (hbefore : s.fds.owner fd = none ∨ s.fds.owner fd = some .other)
    (hwho : who = none ∨ who = some .other)
    (hroom : disturbed = false →
      s.disturbed = false ∧ (who = none ∨ s.pc.window = false)) :
    Inv { s with fds := s.fds.set fd who, disturbed := disturbed } where
  owned := by
    refine h.owned.set who rfl (fun w hw => ?_) fun n w _ => Has.congr rfl rfl rfl rfl n w
    refine iff_of_false (fun hsome => ?_) fun hnow => ?_
    · rcases hwho with rfl | rfl
      · cases hsome
      · exact hw (Option.some.inj hsome).symm
    · have hold := (h.owned fd w hw).mpr ((Has.congr rfl rfl rfl rfl fd w).mp hnow)
      rcases hbefore with hnone | hother
      · rw [hnone] at hold
        cases hold
      · rw [hother] at hold
        exact hw (Option.some.inj hold).symm
  holding := h.holding
  closes := h.closes
  accounted := h.accounted
  room := by
    intro hd
    obtain ⟨hdis, hcase⟩ := hroom hd
    have hold := h.room hdis
    have hfree : ∀ m, who = none → s.fds.owner m = none → (s.fds.set fd who).owner m = none := by
      intro m hnone hm
      rw [FdTable.owner_set, hnone, hm, ite_self]
    -- while the reserve is closed the free descriptor must stay free
    unfold Room at hold ⊢
    cases hpc : s.pc with
    | idleClosed =>
      rw [hpc] at hold hcase
      obtain ⟨m, hm, hnone⟩ := hold
      exact ⟨m, hm, hfree m (hcase.resolve_right (by rintro ⟨⟩)) hnone⟩
    | shedClosed =>
      rw [hpc] at hold hcase
      obtain ⟨m, hm, hnone⟩ := hold
      exact ⟨m, hm, hfree m (hcase.resolve_right (by rintro ⟨⟩)) hnone⟩
    | shed =>
      rw [hpc] at hold hcase
      obtain ⟨m, hm, hidle | hnone⟩ := hold
      · exact ⟨m, hm, .inl hidle⟩
      · exact ⟨m, hm, .inr (hfree m (hcase.resolve_right (by rintro ⟨⟩)) hnone)⟩
    | destructed => exact trivial
    | destroyed => exact trivial
    | _ =>
      rw [hpc] at hold
      exact hold
  refused := fun hd => h.refused (hroom hd).1

theorem inv_step (h : Inv s) (op : Op) : Inv (s.step op) := by
  -- the system calls of the acceptor by where its code is, then the other threads
  cases op with
  | next fails => exact inv_next h fails
  | destroy =>
    unfold step
    dsimp only
    by_cases hpc : s.pc = .waiting
    · rw [if_pos hpc]
      exact inv_destroy h hpc
    · rw [if_neg hpc]
      exact h
  | connect =>
    unfold step
    dsimp only
    by_cases hpc : s.pc = .destroyed
    · rw [if_pos hpc]
      exact h
    · rw [if_neg hpc]
      refine inv_backlog h rfl rfl rfl rfl rfl rfl rfl rfl ?_
      have hplaces := List.perm_iff_count.mp h.accounted
      refine List.perm_iff_count.mpr fun a => ?_
      have hold := hplaces a
      simp only [places, List.count_append, List.range_succ] at hold ⊢
      omega
  | reset conn =>
    unfold step
    dsimp only
    by_cases hmem : conn ∈ s.backlog
    · rw [if_pos hmem]
      refine inv_backlog h rfl rfl rfl rfl rfl rfl rfl rfl ?_
      refine List.Perm.trans (places_perm_of_count fun a => ?_) h.accounted
      have herase := (List.perm_cons_erase hmem).count_eq a
      simp only [places, List.count_append, List.count_cons, List.count_nil] at herase ⊢
      omega
    · rw [if_neg hmem]
      exact h
  | openOther =>
    -- another thread gets the lowest free descriptor, perhaps the one that was freed for the shed
    unfold step
    dsimp only
    cases hlow : s.fds.lowest with
    | none => exact h
    | some fd =>
      refine inv_foreign h (.inl (FdTable.lowest_spec hlow).2) (.inr rfl) fun hd => ?_
      obtain ⟨hdis, hwindow⟩ := Bool.or_eq_false_iff.mp hd
      exact ⟨hdis, .inr hwindow⟩
  | closeOther fd =>
    unfold step
    dsimp only
    by_cases hother : s.fds.owner fd = some .other
    · rw [if_pos hother]
      exact inv_foreign h (.inr hother) (.inl rfl) fun hd => ⟨hd, .inl rfl⟩
    · rw [if_neg hother]
      exact h

/-! ## Every run -/

/-- A process whose open descriptors belong to others. -/
def process (limit : Nat) (used : List Nat) : FdTable where
  limit := limit
  owner := fun fd => if fd ∈ used then some .other else none

theorem process_owner {limit : Nat} {used : List Nat} {fd : Nat} {who : Opener}
    (hwho : who ≠ .other) : (process limit used).owner fd ≠ some who := by
  intro h
  unfold process at h
  dsimp only at h
  by_cases hused : fd ∈ used
  · rw [if_pos hused] at h
    exact hwho (Option.some.inj h).symm
  · rw [if_neg hused] at h
    cases h

/-- The state the constructor leaves, when it has got `sock_`. -/
def made (t : FdTable) (idleFd : Option Nat) (sockFd : Nat) (callback : Bool) : Acceptor where
  idleFd := idleFd
  sockFd := sockFd
  callback := callback
  fds := t.set sockFd (some .sock)
  pc := .waiting
  backlog := []
  arrived := 0
  held := []
  given := []
  shut := []
  gone := []
  closes := []
  refused := 0
  disturbed := idleFd.isNone

theorem inv_made {t : FdTable} {idleFd : Option Nat} {sockFd : Nat} {callback : Bool}
    (hfree : t.owner sockFd = none)
    (hidle : ∀ fd, t.owner fd = some .idle ↔ idleFd = some fd)
    (hothers : ∀ fd who, t.owner fd = some who → who = .other ∨ who = .idle)
    (hlimit : ∀ fd, idleFd = some fd → fd < t.limit) : Inv (made t idleFd sockFd callback) where
  owned := by
    intro fd who hwho
    show (t.set sockFd (some .sock)).owner fd = some who ↔ _
    rw [FdTable.owner_set]
    -- the descriptor of the socket, and those that were open before
    by_cases hfd : fd = sockFd
    · subst hfd
      rw [if_pos rfl]
      cases who with
      | sock => simp [Has, made]
      | idle =>
        refine iff_of_false (by simp) fun hhas => ?_
        rw [(hidle fd).mpr hhas.1] at hfree
        cases hfree
      | accepted c => simp [Has, made]
      | other => exact absurd rfl hwho
    · rw [if_neg hfd]
      cases who with
      | sock =>
        refine iff_of_false (fun howner => ?_) fun hhas => hfd hhas.1
        rcases hothers fd _ howner with heq | heq <;> cases heq
      | idle =>
        rw [hidle fd]
        simp [Has, made, Pc.reserve]
      | accepted c =>
        refine iff_of_false (fun howner => ?_) (by simp [Has, made])
        rcases hothers fd _ howner with heq | heq <;> cases heq
      | other => exact absurd rfl hwho
  holding := rfl
  closes := by rintro w ⟨⟩
  accounted := List.Perm.refl _
  room := by
    intro hdis
    cases hfd : idleFd with
    | none =>
      rw [hfd] at hdis
      cases hdis
    | some fd => exact ⟨fd, hlimit fd hfd, rfl⟩
  refused := fun _ => rfl

theorem inv_new {limit : Nat} {used : List Nat} {fails callback : Bool}
    (h : new (process limit used) fails callback = some s) : Inv s := by
  unfold new at h
  dsimp only at h
  cases hidle : (if fails = true then none else (process limit used).lowest) with
  | none =>
    -- no reserve from the start: only the socket is open
    rw [hidle] at h
    cases hlow : (process limit used).lowest with
    | none =>
      simp only [hlow] at h
      cases h
    | some sockFd =>
      simp only [hlow] at h
      cases h
      refine inv_made (FdTable.lowest_spec hlow).2 (fun fd => ?_) (fun fd who howner => ?_) ?_
      · exact iff_of_false (process_owner (by simp)) (by simp)
      · by_contra hother
        exact process_owner (fun heq => hother (.inl heq)) howner
      · rintro fd ⟨⟩
  | some idle =>
    -- the reserve gets the lowest descriptor, the socket the next
    rw [hidle] at h
    have hlowest : (process limit used).lowest = some idle := by
      by_cases hfails : fails = true
      · rw [if_pos hfails] at hidle
        cases hidle
      · rw [if_neg hfails] at hidle
        exact hidle
    cases hlow : ((process limit used).set idle (some .idle)).lowest with
    | none =>
      simp only [hlow] at h
      cases h
    | some sockFd =>
      simp only [hlow] at h
      cases h
      have hset : ∀ fd who, ((process limit used).set idle (some .idle)).owner fd = some who →
          who = .other ∨ (who = .idle ∧ fd = idle) := by
        intro fd who howner
        rw [FdTable.owner_set] at howner
        by_cases hfd : fd = idle
        · rw [if_pos hfd] at howner
          exact .inr ⟨(Option.some.inj howner).symm, hfd⟩
        · rw [if_neg hfd] at howner
          by_contra hother
          exact process_owner (fun heq => hother (.inl heq)) howner
      refine inv_made (FdTable.lowest_spec hlow).2 (fun fd => ?_) (fun fd who howner => ?_) ?_
      · constructor
        · intro howner
          rcases hset fd _ howner with heq | ⟨-, heq⟩
          · cases heq
          · rw [heq]
        · intro heq
          obtain rfl := Option.some.inj heq
          exact FdTable.owner_set_self _ _ _
      · exact (hset fd who howner).imp id And.left
      · intro fd heq
        obtain rfl := Option.some.inj heq
        exact (FdTable.lowest_spec hlowest).1

/-- **The descriptors of an acceptor**: in every run, whatever other threads open and close between
its system calls and whichever of its own calls fail, the acceptor closes only descriptors that it
has opened, and each once; every connection that arrives is handed over, closed or still waiting;
nothing is left open. As long as no other thread opens a descriptor while `idleFd_` is closed, and
`/dev/null` does not fail to open for another reason than a lack of descriptors (`disturbed`), the
second `accept` does not fail for a lack of descriptors either (`refused`; it may for another
reason, or find nothing waiting), and the reserve is back whenever `readCallback` returns. -/
theorem fds_always_safe {limit : Nat} {used : List Nat} {fails callback : Bool}
    (h : new (process limit used) fails callback = some s) (ops : List Op) :
    Runs.Always step Safe s ops :=
  (Runs.always_of_step (I := Inv) (fun _ op hi => inv_step hi op) (inv_new h) ops).mono
    fun _ hi => hi.safe

/-- Five descriptors, of which others have three: the only connection is shed. -/
theorem fds_always_safe_full :
    ∃ s, new (process 5 [0, 1, 2]) false true = some s ∧
      Runs.Always step Safe s [.connect, .next false, .next false, .next false, .next false,
        .next false, .destroy, .next false, .next false] := by
  have hnew : ∃ s, new (process 5 [0, 1, 2]) false true = some s := ⟨_, rfl⟩
  obtain ⟨s, hs⟩ := hnew
  exact ⟨s, hs, fds_always_safe hs _⟩

end Acceptor

end XiaoNet
