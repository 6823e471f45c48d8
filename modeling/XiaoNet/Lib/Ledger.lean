import Mathlib.Data.List.Basic
import Mathlib.Data.List.Nodup
import Mathlib.Logic.Function.Basic

/-!
# A ledger and the cells that wait

What was asked to be sent is a ledger: a list of items in the order of the requests. An
item without an owner is complete, an item with an owner grows while its owner feeds it.
What is sent is a list of bytes, and what waits is in cells: `content k` are the bytes
of cell `k`, and `stream k` says that the cell belongs to the item it owns alone.

- `Behind l log`: the cells `l` hold exactly the items `log`, in order.
- `Aligned sent list log`: what is sent and the cells of `list` are the ledger; the front
  cell may be sent in part.
- `aligned_…`: one lemma for each thing that can happen. `Aligned.total` and
  `Aligned.sent_prefix` are what alignment means for the bytes.
-/

namespace Ledger

universe u v

variable {κ : Type u} {β : Type v}

structure Item (κ : Type u) (β : Type v) where
  owner : Option κ
  bytes : List β

/-- The bytes of the items, in order. -/
def bytes (log : List (Item κ β)) : List β := log.flatMap Item.bytes

/-- The bytes of the cells, in order. -/
def contents (content : κ → List β) (l : List κ) : List β := l.flatMap content

/-- The owners of the items. -/
def owners (log : List (Item κ β)) : List κ := log.filterMap Item.owner

@[simp] theorem bytes_nil : bytes ([] : List (Item κ β)) = [] := rfl

@[simp] theorem bytes_cons (i : Item κ β) (log : List (Item κ β)) :
    bytes (i :: log) = i.bytes ++ bytes log := List.flatMap_cons

@[simp] theorem bytes_append (log₁ log₂ : List (Item κ β)) :
    bytes (log₁ ++ log₂) = bytes log₁ ++ bytes log₂ := List.flatMap_append

@[simp] theorem contents_nil (content : κ → List β) : contents content [] = [] := rfl

@[simp] theorem contents_cons (content : κ → List β) (k : κ) (l : List κ) :
    contents content (k :: l) = content k ++ contents content l := List.flatMap_cons

theorem mem_owners {log : List (Item κ β)} {k : κ} :
    k ∈ owners log ↔ ∃ i ∈ log, i.owner = some k := List.mem_filterMap

theorem owners_concat_none (log : List (Item κ β)) (bs : List β) :
    owners (log ++ [⟨none, bs⟩]) = owners log := by
  simp [owners]

theorem owners_concat_some (log : List (Item κ β)) (k : κ) (bs : List β) :
    owners (log ++ [⟨some k, bs⟩]) = owners log ++ [k] := by
  simp [owners]

theorem owners_append (log₁ log₂ : List (Item κ β)) :
    owners (log₁ ++ log₂) = owners log₁ ++ owners log₂ := List.filterMap_append

/-! ## Feeding an item -/

section Chunk

variable [DecidableEq κ]

/-- The items of owner `k` grow by `data`. -/
def chunk (k : κ) (data : List β) (log : List (Item κ β)) : List (Item κ β) :=
  log.map fun i => if i.owner = some k then { i with bytes := i.bytes ++ data } else i

theorem chunk_append (k : κ) (data : List β) (log₁ log₂ : List (Item κ β)) :
    chunk k data (log₁ ++ log₂) = chunk k data log₁ ++ chunk k data log₂ := List.map_append

/-- Items of other owners stay. -/
theorem chunk_of_not_mem (k : κ) (data : List β) {log : List (Item κ β)}
    (h : k ∉ owners log) : chunk k data log = log := by
  have hid : ∀ i ∈ log, (if i.owner = some k then { i with bytes := i.bytes ++ data } else i) = i :=
    fun i hi => if_neg fun howner => h (mem_owners.mpr ⟨i, hi, howner⟩)
  rw [chunk, List.map_congr_left hid, List.map_id']

/-- The item that is fed is the last. -/
theorem chunk_concat (k : κ) (data bs : List β) {log : List (Item κ β)} (h : k ∉ owners log) :
    chunk k data (log ++ [⟨some k, bs⟩]) = log ++ [⟨some k, bs ++ data⟩] := by
  rw [chunk_append, chunk_of_not_mem k data h]
  simp [chunk]

theorem owners_chunk (k : κ) (data : List β) (log : List (Item κ β)) :
    owners (chunk k data log) = owners log := by
  rw [owners, chunk, List.filterMap_map]
  refine List.filterMap_congr fun i _ => ?_
  rw [Function.comp_apply]
  split <;> rfl

end Chunk

/-! ## Cells that hold whole items -/

/-- The cells `l` hold exactly the items `log`: a stream cell its own item, another a
block of items without owners. Empty items need no cell. -/
inductive Behind (content : κ → List β) (stream : κ → Prop) :
    List κ → List (Item κ β) → Prop where
  | nil : Behind content stream [] []
  | skip {l log} : Behind content stream l log → Behind content stream l (⟨none, []⟩ :: log)
  | block {k l block log} : ¬ stream k → owners block = [] → bytes block = content k →
      Behind content stream l log → Behind content stream (k :: l) (block ++ log)
  | stream {k l log} : stream k → Behind content stream l log →
      Behind content stream (k :: l) (⟨some k, content k⟩ :: log)

section Behind

variable {content : κ → List β} {stream : κ → Prop}

theorem Behind.bytes_eq {l : List κ} {log : List (Item κ β)} (h : Behind content stream l log) :
    contents content l = bytes log := by
  induction h with
  | nil => rfl
  | skip _ ih => simpa using ih
  | block _ _ hbytes _ ih => rw [contents_cons, bytes_append, hbytes, ih]
  | stream _ _ ih => rw [contents_cons, bytes_cons, ih]

/-- Items without a cell are empty. -/
theorem Behind.of_nil {log : List (Item κ β)} (h : Behind content stream [] log) :
    owners log = [] ∧ bytes log = [] := by
  generalize hl : ([] : List κ) = l at h
  induction h with
  | nil => exact ⟨rfl, rfl⟩
  | skip _ ih => exact ⟨(ih hl).1, by simpa using (ih hl).2⟩
  | block => cases hl
  | stream => cases hl

theorem Behind.congr {content' : κ → List β} {stream' : κ → Prop} {l : List κ}
    {log : List (Item κ β)} (h : Behind content stream l log)
    (hcontent : ∀ k ∈ l, content' k = content k) (hstream : ∀ k ∈ l, stream' k ↔ stream k) :
    Behind content' stream' l log := by
  induction h with
  | nil => exact .nil
  | skip _ ih => exact .skip (ih hcontent hstream)
  | @block k l block log hk howners hbytes _ ih =>
    have hhead : k ∈ k :: l := List.mem_cons_self
    refine .block (fun hs => hk ((hstream k hhead).mp hs)) howners ?_
      (ih (fun j hj => hcontent j (.tail k hj)) fun j hj => hstream j (.tail k hj))
    rw [hbytes, hcontent k hhead]
  | @stream k l log hk _ ih =>
    have hhead : k ∈ k :: l := List.mem_cons_self
    have hitem := Behind.stream ((hstream k hhead).mpr hk)
      (ih (fun j hj => hcontent j (.tail k hj)) fun j hj => hstream j (.tail k hj))
    rw [hcontent k hhead] at hitem
    exact hitem

/-- A stream cell has its item. -/
theorem Behind.mem_owners {l : List κ} {log : List (Item κ β)} (h : Behind content stream l log)
    {k : κ} (hk : k ∈ l) (hs : stream k) : k ∈ owners log := by
  induction h with
  | nil => cases hk
  | skip _ ih => exact ih hk
  | block hnot _ _ _ ih =>
    rw [owners_append]
    cases hk with
    | head => exact absurd hs hnot
    | tail _ hk => exact List.mem_append_right _ (ih hk)
  | stream _ _ ih =>
    cases hk with
    | head => exact List.mem_cons_self
    | tail _ hk => exact List.mem_cons_of_mem _ (ih hk)

/-- An empty item at the end. -/
theorem Behind.skip_end {l : List κ} {log : List (Item κ β)} (h : Behind content stream l log) :
    Behind content stream l (log ++ [⟨none, []⟩]) := by
  induction h with
  | nil => exact .skip .nil
  | skip _ ih => exact .skip ih
  | block hk howners hbytes _ ih =>
    rw [List.append_assoc]
    exact .block hk howners hbytes ih
  | stream hk _ ih => exact .stream hk ih

/-- A new cell at the end. -/
theorem Behind.push {l : List κ} {log : List (Item κ β)} (h : Behind content stream l log)
    {k : κ} {new : List (Item κ β)} (hnew : Behind content stream [k] new) :
    Behind content stream (l ++ [k]) (log ++ new) := by
  induction h with
  | nil => exact hnew
  | skip _ ih => exact .skip ih
  | block hk howners hbytes _ ih =>
    rw [List.append_assoc]
    exact .block hk howners hbytes ih
  | stream hk _ ih => exact .stream hk ih

/-- A cell that takes the bytes of one item. -/
theorem Behind.single {k : κ} (hk : ¬ stream k) :
    Behind content stream [k] [⟨none, content k⟩] := by
  have hblock : Behind content stream [k] ([⟨none, content k⟩] ++ []) :=
    .block hk rfl (List.append_nil _) .nil
  exact hblock

variable [DecidableEq κ]

/-- More bytes in the last cell. -/
theorem Behind.extend {l : List κ} {k : κ} {log : List (Item κ β)}
    (h : Behind content stream (l ++ [k]) log) (hk : ¬ stream k) (hkl : k ∉ l) (data : List β) :
    Behind (Function.update content k (content k ++ data)) stream (l ++ [k])
      (log ++ [⟨none, data⟩]) := by
  generalize hl : l ++ [k] = l' at h
  induction h generalizing l with
  | nil => simp at hl
  | skip _ ih => exact .skip (ih hkl hl)
  | @block j l₁ block log hj howners hbytes hrest ih =>
    cases l with
    | nil =>
      -- the last cell: what follows it are empty items
      obtain ⟨rfl, rfl⟩ : k = j ∧ [] = l₁ := by simpa using hl
      obtain ⟨hnone, hnil⟩ := hrest.of_nil
      have hblock : Behind (Function.update content k (content k ++ data)) stream [k]
          (block ++ log ++ [⟨none, data⟩] ++ []) := by
        refine .block hk ?_ ?_ .nil
        · rw [owners_append, owners_append, howners, hnone]
          rfl
        · rw [bytes_append, bytes_append, hbytes, hnil]
          simp
      rw [List.append_nil] at hblock
      exact hblock
    | cons i l =>
      obtain ⟨rfl, rfl⟩ : i = j ∧ l ++ [k] = l₁ := by simpa using hl
      have hne : i ≠ k := fun h => hkl (h ▸ List.mem_cons_self)
      rw [List.append_assoc]
      refine .block hj howners ?_ (ih (fun h => hkl (.tail i h)) rfl)
      rw [Function.update_of_ne hne, hbytes]
  | @stream j l₁ log hj _ ih =>
    cases l with
    | nil =>
      obtain ⟨rfl, rfl⟩ : k = j ∧ [] = l₁ := by simpa using hl
      exact absurd hj hk
    | cons i l =>
      obtain ⟨rfl, rfl⟩ : i = j ∧ l ++ [k] = l₁ := by simpa using hl
      have hne : i ≠ k := fun h => hkl (h ▸ List.mem_cons_self)
      have hitem := Behind.stream hj (ih (fun h => hkl (.tail i h)) rfl)
      rw [Function.update_of_ne hne] at hitem
      exact hitem

/-- More bytes of a stream. -/
theorem Behind.feed {l : List κ} {log : List (Item κ β)} (h : Behind content stream l log)
    {k : κ} (hk : stream k) (data : List β) :
    Behind (Function.update content k (content k ++ data)) stream l (chunk k data log) := by
  induction h with
  | nil => exact .nil
  | skip _ ih => exact .skip ih
  | @block j l block log hj howners hbytes _ ih =>
    -- the owner of a block is no stream, so it is not the one that is fed
    have hne : j ≠ k := fun h => hj (h ▸ hk)
    have hnot : k ∉ owners block := by
      rw [howners]
      exact List.not_mem_nil
    rw [chunk_append, chunk_of_not_mem k data hnot]
    refine .block hj howners ?_ ih
    rw [Function.update_of_ne hne, hbytes]
  | @stream j l log hj _ ih =>
    have hitem := Behind.stream hj ih
    -- its own item grows, that of another stream is as it was
    by_cases hjk : j = k
    · subst hjk
      rw [Function.update_self] at hitem
      simpa [chunk] using hitem
    · rw [Function.update_of_ne hjk] at hitem
      simpa [chunk, hjk] using hitem

end Behind

/-! ## What is sent and what waits -/

/-- What is sent and the cells of the list are the ledger: the front cell ends some items
of which a part is sent, the others hold the rest. -/
def Aligned (content : κ → List β) (stream : κ → Prop) (sent : List β) :
    List κ → List (Item κ β) → Prop
  | [], log => sent = bytes log
  | k :: rest, log => ∃ log₁ log₂, log = log₁ ++ log₂ ∧ sent ++ content k = bytes log₁ ∧
      Behind content stream rest log₂ ∧ (stream k → ∃ pre bs, log₁ = pre ++ [⟨some k, bs⟩])

section Aligned

variable {content content' : κ → List β} {stream stream' : κ → Prop} {sent : List β}
  {log : List (Item κ β)}

/-- Nothing is lost, doubled or put in another place. -/
theorem Aligned.total {list : List κ} (h : Aligned content stream sent list log) :
    sent ++ contents content list = bytes log := by
  cases list with
  | nil =>
    rw [contents_nil, List.append_nil]
    exact h
  | cons k rest =>
    obtain ⟨log₁, log₂, rfl, hfront, hbehind, -⟩ := h
    rw [contents_cons, ← List.append_assoc, hfront, hbehind.bytes_eq, bytes_append]

theorem Aligned.congr {list : List κ} (h : Aligned content stream sent list log)
    (hcontent : ∀ k ∈ list, content' k = content k) (hstream : ∀ k ∈ list, stream' k ↔ stream k) :
    Aligned content' stream' sent list log := by
  cases list with
  | nil => exact h
  | cons k rest =>
    obtain ⟨log₁, log₂, hlog, hfront, hbehind, hs⟩ := h
    have hhead : k ∈ k :: rest := List.mem_cons_self
    refine ⟨log₁, log₂, hlog, ?_, hbehind.congr (fun j hj => hcontent j (.tail k hj))
      fun j hj => hstream j (.tail k hj), fun hk => hs ((hstream k hhead).mp hk)⟩
    rw [hcontent k hhead, hfront]

/-- Nothing waits and a part of an item is sent. -/
theorem aligned_direct (h : Aligned content stream sent [] log) (data : List β) :
    Aligned content' stream' (sent ++ data) [] (log ++ [⟨none, data⟩]) := by
  have hsent : sent = bytes log := h
  show sent ++ data = bytes (log ++ [⟨none, data⟩])
  rw [hsent, bytes_append, bytes_cons, bytes_nil, List.append_nil]

/-- Nothing waits, a part of an item is sent and a new cell takes the rest. -/
theorem aligned_direct_push (h : Aligned content stream sent [] log) {a data : List β} {k : κ}
    (hk : ¬ stream' k) (hdata : a ++ content' k = data) :
    Aligned content' stream' (sent ++ a) [k] (log ++ [⟨none, data⟩]) := by
  have hsent : sent = bytes log := h
  refine ⟨log ++ [⟨none, data⟩], [], (List.append_nil _).symm, ?_, .nil,
    fun hs => absurd hs hk⟩
  rw [List.append_assoc, hdata, hsent, bytes_append, bytes_cons, bytes_nil, List.append_nil]

/-- An empty item. -/
theorem aligned_skip {list : List κ} (h : Aligned content stream sent list log) :
    Aligned content stream sent list (log ++ [⟨none, []⟩]) := by
  cases list with
  | nil =>
    have hdirect : Aligned content stream (sent ++ []) [] (log ++ [⟨none, []⟩]) :=
      aligned_direct h []
    simpa using hdirect
  | cons k rest =>
    obtain ⟨log₁, log₂, rfl, hfront, hbehind, hs⟩ := h
    exact ⟨log₁, log₂ ++ [⟨none, []⟩], by rw [List.append_assoc], hfront, hbehind.skip_end, hs⟩

/-- A new cell that takes one item. -/
theorem aligned_push {list : List κ} (h : Aligned content stream sent list log) {k : κ}
    (hk : ¬ stream k) : Aligned content stream sent (list ++ [k]) (log ++ [⟨none, content k⟩]) := by
  cases list with
  | nil =>
    have hsent : sent = bytes log := h
    refine ⟨log ++ [⟨none, content k⟩], [], (List.append_nil _).symm, ?_, .nil,
      fun hs => absurd hs hk⟩
    simp [hsent]
  | cons j rest =>
    obtain ⟨log₁, log₂, rfl, hfront, hbehind, hs⟩ := h
    exact ⟨log₁, log₂ ++ [⟨none, content k⟩], by rw [List.append_assoc], hfront,
      hbehind.push (.single hk), hs⟩

/-- A new stream. -/
theorem aligned_open {list : List κ} (h : Aligned content stream sent list log) {k : κ}
    (hk : stream k) (hempty : content k = []) :
    Aligned content stream sent (list ++ [k]) (log ++ [⟨some k, []⟩]) := by
  cases list with
  | nil =>
    have hsent : sent = bytes log := h
    refine ⟨log ++ [⟨some k, []⟩], [], (List.append_nil _).symm, ?_, .nil,
      fun _ => ⟨log, [], rfl⟩⟩
    simp [hsent, hempty]
  | cons j rest =>
    obtain ⟨log₁, log₂, rfl, hfront, hbehind, hs⟩ := h
    have hitem : Behind content stream [k] [⟨some k, content k⟩] := .stream hk .nil
    rw [hempty] at hitem
    exact ⟨log₁, log₂ ++ [⟨some k, []⟩], by rw [List.append_assoc], hfront,
      hbehind.push hitem, hs⟩

/-- A part of the front cell is sent. -/
theorem aligned_progress {sent' : List β} {k : κ} {rest : List κ}
    (h : Aligned content stream sent (k :: rest) log)
    (hsum : sent' ++ content' k = sent ++ content k) (hrest : ∀ j ∈ rest, content' j = content j)
    (hstream : ∀ j ∈ k :: rest, stream' j ↔ stream j) :
    Aligned content' stream' sent' (k :: rest) log := by
  obtain ⟨log₁, log₂, hlog, hfront, hbehind, hs⟩ := h
  have hhead : k ∈ k :: rest := List.mem_cons_self
  refine ⟨log₁, log₂, hlog, ?_, hbehind.congr hrest fun j hj => hstream j (.tail k hj),
    fun hk => hs ((hstream k hhead).mp hk)⟩
  rw [hsum, hfront]

/-- An empty front cell is taken off. -/
theorem aligned_pop {k : κ} {rest : List κ} (h : Aligned content stream sent (k :: rest) log)
    (hempty : content k = []) : Aligned content stream sent rest log := by
  obtain ⟨log₁, log₂, rfl, hfront, hbehind, -⟩ := h
  rw [hempty, List.append_nil] at hfront
  clear hempty
  -- the empty items before the next cell go to the front part
  generalize hlog₁ : log₁ = front at hfront
  clear hlog₁ log₁
  induction hbehind generalizing front with
  | nil =>
    show sent = bytes (front ++ [])
    rw [List.append_nil, hfront]
  | @skip l log hbehind ih =>
    have hnext := ih (front ++ [⟨none, []⟩]) (by simpa using hfront)
    rw [List.append_assoc] at hnext
    exact hnext
  | @block j l block log hj howners hbytes hbehind _ =>
    refine ⟨front ++ block, log, by rw [List.append_assoc], ?_, hbehind, fun hs => absurd hs hj⟩
    rw [bytes_append, hbytes, hfront]
  | @stream j l log hj hbehind _ =>
    refine ⟨front ++ [⟨some j, content j⟩], log, by rw [List.append_assoc]; rfl, ?_, hbehind,
      fun _ => ⟨front, content j, rfl⟩⟩
    rw [bytes_append, hfront]
    simp

variable [DecidableEq κ]

/-- More bytes in the last cell. -/
theorem aligned_extend {l : List κ} {k : κ} (h : Aligned content stream sent (l ++ [k]) log)
    (hk : ¬ stream k) (hkl : k ∉ l) (data : List β) :
    Aligned (Function.update content k (content k ++ data)) stream sent (l ++ [k])
      (log ++ [⟨none, data⟩]) := by
  cases l with
  | nil =>
    obtain ⟨log₁, log₂, rfl, hfront, hbehind, -⟩ := h
    refine ⟨log₁ ++ log₂ ++ [⟨none, data⟩], [], (List.append_nil _).symm, ?_, .nil,
      fun hs => absurd hs hk⟩
    rw [Function.update_self, ← List.append_assoc, hfront, bytes_append, bytes_append,
      hbehind.of_nil.2]
    simp
  | cons j l =>
    obtain ⟨log₁, log₂, rfl, hfront, hbehind, hs⟩ := h
    have hne : j ≠ k := fun h => hkl (h ▸ List.mem_cons_self)
    refine ⟨log₁, log₂ ++ [⟨none, data⟩], by rw [List.append_assoc], ?_,
      hbehind.extend hk (fun h => hkl (.tail j h)) data, hs⟩
    rw [Function.update_of_ne hne, hfront]

/-- More bytes of a stream that waits. -/
theorem aligned_feed {list : List κ} (h : Aligned content stream sent list log)
    (hnodup : (owners log).Nodup) {k : κ} (hk : stream k) (hmem : k ∈ list) (data : List β) :
    Aligned (Function.update content k (content k ++ data)) stream sent list
      (chunk k data log) := by
  cases list with
  | nil => cases hmem
  | cons j rest =>
    obtain ⟨log₁, log₂, rfl, hfront, hbehind, hs⟩ := h
    rw [owners_append, List.nodup_append] at hnodup
    rw [chunk_append]
    -- the front stream is fed at the end of what is being sent, another one behind it
    by_cases hjk : j = k
    · subst hjk
      obtain ⟨pre, bs, rfl⟩ := hs hk
      have hnot : j ∉ owners pre := by
        have hpre := hnodup.1
        rw [owners_append, List.nodup_append] at hpre
        exact fun hmem => hpre.2.2 j hmem j List.mem_cons_self rfl
      rw [chunk_concat j data bs hnot]
      refine ⟨pre ++ [⟨some j, bs ++ data⟩], _, rfl, ?_, hbehind.feed hk data,
        fun _ => ⟨pre, bs ++ data, rfl⟩⟩
      rw [Function.update_self, ← List.append_assoc, hfront]
      simp
    · have hrest : k ∈ rest := by
        cases hmem with
        | head => exact absurd rfl hjk
        | tail _ hmem => exact hmem
      have hnot : k ∉ owners log₁ := fun hmem =>
        hnodup.2.2 k hmem k (hbehind.mem_owners hrest hk) rfl
      rw [chunk_of_not_mem k data hnot]
      refine ⟨log₁, _, rfl, ?_, hbehind.feed hk data, hs⟩
      rw [Function.update_of_ne hjk, hfront]

omit [DecidableEq κ] in
/-- An owner has one item. -/
theorem item_unique {a b a' b' : List (Item κ β)} {i i' : Item κ β} {k : κ}
    (h : a ++ i :: b = a' ++ i' :: b') (hi : i.owner = some k) (hi' : i'.owner = some k)
    (hnodup : (owners (a ++ i :: b)).Nodup) : a = a' ∧ i = i' := by
  have hmem : ∀ {l : List (Item κ β)} {j : Item κ β} {r}, j.owner = some k →
      k ∈ owners (l ++ j :: r) := fun hj =>
    mem_owners.mpr ⟨_, List.mem_append_right _ List.mem_cons_self, hj⟩
  induction a generalizing a' with
  | nil =>
    cases a' with
    | nil => exact ⟨rfl, (List.cons.inj h).1⟩
    | cons j a' =>
      -- the item of `k` comes first, and once more behind it
      obtain ⟨rfl, rfl⟩ := List.cons.inj h
      rw [List.nil_append, owners, List.filterMap_cons_some hi, List.nodup_cons] at hnodup
      exact absurd (hmem hi') hnodup.1
  | cons j a ih =>
    cases a' with
    | nil =>
      obtain ⟨rfl, rfl⟩ := List.cons.inj h
      rw [List.cons_append, owners, List.filterMap_cons_some hi', List.nodup_cons] at hnodup
      exact absurd (hmem hi) hnodup.1
    | cons j' a' =>
      obtain ⟨rfl, htail⟩ := List.cons.inj h
      have hsub : (owners (a ++ i :: b)).Nodup := by
        refine hnodup.sublist ?_
        exact (List.sublist_cons_self j _).filterMap Item.owner
      obtain ⟨rfl, rfl⟩ := ih htail hsub
      exact ⟨rfl, rfl⟩

omit [DecidableEq κ] in
/-- Nothing behind the item of a stream whose cell waits is sent. -/
theorem Aligned.sent_prefix {list : List κ} (h : Aligned content stream sent list log)
    (hnodup : (owners log).Nodup) {k : κ} (hk : stream k) (hmem : k ∈ list)
    {pre post : List (Item κ β)} {bs : List β} (hlog : log = pre ++ ⟨some k, bs⟩ :: post) :
    sent <+: bytes (pre ++ [⟨some k, bs⟩]) := by
  cases list with
  | nil => cases hmem
  | cons j rest =>
    obtain ⟨log₁, log₂, rfl, hfront, hbehind, hs⟩ := h
    -- what is sent ends within the part of the front
    have hsent : sent <+: bytes log₁ := ⟨content j, hfront⟩
    by_cases hjk : j = k
    · subst hjk
      obtain ⟨pre', bs', rfl⟩ := hs hk
      rw [List.append_assoc] at hlog hnodup
      obtain ⟨rfl, hitem⟩ := item_unique hlog rfl rfl hnodup
      rw [← hitem]
      exact hsent
    · have hrest : k ∈ rest := by
        cases hmem with
        | head => exact absurd rfl hjk
        | tail _ hmem => exact hmem
      obtain ⟨i, hi, howner⟩ := mem_owners.mp (hbehind.mem_owners hrest hk)
      obtain ⟨p, q, rfl⟩ := List.append_of_mem hi
      rw [← List.append_assoc] at hlog hnodup
      obtain ⟨rfl, -⟩ := item_unique hlog howner rfl hnodup
      rw [List.append_assoc, bytes_append]
      exact hsent.trans (List.prefix_append _ _)

end Aligned

end Ledger
