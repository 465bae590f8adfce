import Mathlib.Tactic.Linarith
import Sreality.Foundation.Ranked
import Sreality.Scraper.DetailQueueLedger

/-! The shares of `claim_detail_batch`: what one claim takes of the adverts never fetched, of the
presence checks and of the rest, and that over a run of claims no refresh traffic holds an advert
never fetched back for ever. -/

set_option autoImplicit false

namespace Sreality.Scraper.DetailQueue

open Sreality.Foundation

namespace World

/-- A row a claim may take, never fetched. -/
def waiting (row : QueueRow) : Bool :=
  available row && decide (row.priority = priorityNew)

/-- A row a claim may take, queued to see whether the advert is still there. -/
def checking (row : QueueRow) : Bool :=
  available row && decide (row.priority = priorityVerify)

theorem waiting_iff {row : QueueRow} :
    waiting row = true ↔ available row = true ∧ row.priority = priorityNew := by
  rw [waiting, Bool.and_eq_true, decide_eq_true_iff]

theorem checking_iff {row : QueueRow} :
    checking row = true ↔ available row = true ∧ row.priority = priorityVerify := by
  rw [checking, Bool.and_eq_true, decide_eq_true_iff]

theorem available_iff {row : QueueRow} :
    available row = true ↔ row.claimedAt = none ∧ row.givenUp = false := by
  rw [available, Bool.and_eq_true, Option.isNone_iff_eq_none, Bool.not_eq_true']

/-! ### The three shares -/

section Shares

variable {rows : List QueueRow} {limit : Nat} {reserve : Float64} {row : QueueRow}

theorem mem_claimBatch_iff : row ∈ claimBatch rows limit reserve ↔
    row ∈ acq rows limit reserve ∨ row ∈ ver rows limit reserve ∨
      row ∈ rest rows limit reserve := by
  rw [claimBatch, List.mem_append, List.mem_append, or_assoc]

theorem waiting_of_mem_acq (taken : row ∈ acq rows limit reserve) :
    row ∈ rows ∧ waiting row = true := by
  obtain ⟨held, new⟩ := List.mem_filter.mp (mem_of_mem_firstBy taken)
  obtain ⟨listed, free⟩ := List.mem_filter.mp held
  exact ⟨listed, waiting_iff.mpr ⟨free, of_decide_eq_true new⟩⟩

theorem checking_of_mem_ver (taken : row ∈ ver rows limit reserve) :
    row ∈ rows ∧ checking row = true := by
  obtain ⟨held, check⟩ := List.mem_filter.mp (mem_of_mem_firstBy taken)
  obtain ⟨listed, free⟩ := List.mem_filter.mp held
  exact ⟨listed, checking_iff.mpr ⟨free, of_decide_eq_true check⟩⟩

theorem refresh_of_mem_rest (taken : row ∈ rest rows limit reserve) :
    row.priority ≠ priorityNew :=
  (of_decide_eq_true (List.mem_filter.mp (mem_of_mem_firstBy taken)).2).1

/-- The rows never fetched that a claim takes are those of its acquisition share. -/
theorem mem_acq_iff : row ∈ acq rows limit reserve ↔
    row ∈ claimBatch rows limit reserve ∧ row.priority = priorityNew := by
  rw [mem_claimBatch_iff]
  constructor
  · intro taken
    exact ⟨.inl taken, (waiting_iff.mp (waiting_of_mem_acq taken).2).2⟩
  · rintro ⟨taken | taken | taken, new⟩
    · exact taken
    · have check := (checking_iff.mp (checking_of_mem_ver taken).2).2
      rw [new] at check
      exact absurd check (by decide)
    · exact absurd new (refresh_of_mem_rest taken)

theorem filter_new : ((claimBatch rows limit reserve).filter fun row =>
    decide (row.priority = priorityNew)) = acq rows limit reserve := by
  have early : ((acq rows limit reserve).filter fun row => decide (row.priority = priorityNew)) =
      acq rows limit reserve := by
    rw [List.filter_eq_self]
    intro row taken
    exact decide_eq_true (mem_acq_iff.mp taken).2
  have checks : ((ver rows limit reserve).filter fun row =>
      decide (row.priority = priorityNew)) = [] := by
    rw [List.filter_eq_nil_iff]
    intro row taken new
    have check := (checking_iff.mp (checking_of_mem_ver taken).2).2
    rw [of_decide_eq_true new] at check
    exact absurd check (by decide)
  have refreshed : ((rest rows limit reserve).filter fun row =>
      decide (row.priority = priorityNew)) = [] := by
    rw [List.filter_eq_nil_iff]
    intro row taken new
    exact refresh_of_mem_rest taken (of_decide_eq_true new)
  rw [claimBatch, List.filter_append, List.filter_append, early, checks, refreshed,
    List.append_nil, List.append_nil]

theorem filter_waiting :
    ((rows.filter available).filter fun row => decide (row.priority = priorityNew)) =
      rows.filter waiting := by
  rw [List.filter_filter]
  exact congrArg (rows.filter ·) (funext fun row => Bool.and_comm _ _)

theorem filter_checking :
    ((rows.filter available).filter fun row => decide (row.priority = priorityVerify)) =
      rows.filter checking := by
  rw [List.filter_filter]
  exact congrArg (rows.filter ·) (funext fun row => Bool.and_comm _ _)

theorem length_acq : (acq rows limit reserve).length =
    min (acqLimit limit reserve) (rows.filter waiting).length := by
  unfold acq
  rw [length_firstBy, filter_waiting]

theorem length_ver : (ver rows limit reserve).length =
    min (min (verLimit limit) (limit - (acq rows limit reserve).length))
      (rows.filter checking).length := by
  unfold ver
  rw [length_firstBy, filter_checking]

theorem acqLimit_le : acqLimit limit reserve ≤ limit := by
  unfold acqLimit
  split_ifs with none_
  · exact Nat.zero_le _
  · exact min_le_left _ _

theorem acqLimit_pos (some_ : 1 ≤ limit) (reserved : 0 < reserve.value) :
    1 ≤ acqLimit limit reserve := by
  unfold acqLimit
  rw [if_neg (not_le.mpr reserved)]
  exact le_min some_ (le_max_left _ _)

/-- A reserve of some keeps a place: the float product is no less than the reserve. -/
theorem shareOf_pos (some_ : 1 ≤ limit) (reserved : 0 < reserve.value) :
    0 < shareOf limit reserve := by
  apply Nat.ceil_pos.mpr
  have size : ((1 : ℕ) : ℚ) ≤ limit := by exact_mod_cast some_
  have whole : ((1 : ℕ) : ℚ) ≤ binary64.round limit :=
    BinaryFormat.natCast_le_round _ (by decide) (by decide) size
  have more : reserve.value ≤ binary64.round limit * reserve.value :=
    le_mul_of_one_le_left reserved.le (by exact_mod_cast whole)
  have rounded := BinaryFormat.round_mono binary64 more
  rw [reserve.exact] at rounded
  exact reserved.trans_le rounded

/-- Up to the integers that a float has a reserve within one never passes the limit. -/
theorem shareOf_le (few : limit ≤ 2 ^ 53) (within : reserve.value ≤ 1) :
    shareOf limit reserve ≤ limit := by
  have whole : binary64.round limit = limit := BinaryFormat.round_natCast _ few (by decide)
  have less : binary64.round limit * reserve.value ≤ limit := by
    rw [whole]
    exact mul_le_of_le_one_right (Nat.cast_nonneg _) within
  have rounded := BinaryFormat.round_mono binary64 less
  rw [whole] at rounded
  exact Nat.ceil_le.mpr (by simpa [whole] using rounded)

/-- The least of one changes no share of a reserve from none up. -/
theorem acqLimit_eq (some_ : 1 ≤ limit) (nonneg : 0 ≤ reserve.value) :
    acqLimit limit reserve = min limit (shareOf limit reserve) := by
  unfold acqLimit
  split_ifs with none_
  · have zero : shareOf limit reserve = 0 := by
      have empty := le_antisymm none_ nonneg
      unfold shareOf
      rw [Binary.value_mul, empty, mul_zero, BinaryFormat.round_zero, Nat.ceil_zero]
    rw [zero, Nat.min_zero]
  · rw [max_eq_right (shareOf_pos some_ (not_le.mp none_))]

end Shares

/-- What one claim takes of a queue. -/
structure ReservesKept (rows : List QueueRow) (limit : Nat) (reserve : Float64)
    (batch : List QueueRow) : Prop where
  distinct : Keyed (·.nativeId) batch
  free : ∀ row ∈ batch, row ∈ rows ∧ row.claimedAt = none ∧ row.givenUp = false
  within : batch.length ≤ limit
  share : (batch.filter fun row => decide (row.priority = priorityNew)).length =
    min (rows.filter waiting).length (min limit (shareOf limit reserve))
  whole : limit ≤ 2 ^ 53 → shareOf limit reserve ≤ limit
  oldest : ∀ taken ∈ batch, taken.priority = priorityNew → ∀ row ∈ rows, waiting row = true →
    row ∉ batch → taken.enqueuedAt ≤ row.enqueuedAt
  one : 0 < reserve.value → (∃ row ∈ rows, waiting row = true) →
    ∃ row ∈ batch, row.priority = priorityNew
  checks : min (rows.filter checking).length (min (shareOf limit verifyReserve)
      (limit - (batch.filter fun row => decide (row.priority = priorityNew)).length)) ≤
    (batch.filter fun row => decide (row.priority = priorityVerify)).length
  short : batch.length < limit → ∀ row ∈ rows, available row = true →
    row.priority ≠ priorityNew → row ∈ batch

section Claim

variable {rows : List QueueRow} {limit : Nat} {reserve : Float64}

theorem exists_mem_acq (some_ : 1 ≤ limit) (reserved : 0 < reserve.value)
    (listed : ∃ row ∈ rows, waiting row = true) : ∃ row, row ∈ acq rows limit reserve := by
  obtain ⟨row, held, waits⟩ := listed
  apply List.exists_mem_of_length_pos
  rw [length_acq]
  have counted : 0 < (rows.filter waiting).length :=
    List.length_pos_of_mem (List.mem_filter.mpr ⟨held, waits⟩)
  have room := acqLimit_pos some_ reserved
  omega

theorem length_claimBatch : (claimBatch rows limit reserve).length ≤ limit := by
  have first : (acq rows limit reserve).length ≤ limit := by
    rw [length_acq]
    exact (min_le_left _ _).trans acqLimit_le
  have second : (ver rows limit reserve).length ≤ limit - (acq rows limit reserve).length := by
    rw [length_ver]
    exact (min_le_left _ _).trans (min_le_right _ _)
  have third : (rest rows limit reserve).length ≤
      limit - (acq rows limit reserve).length - (ver rows limit reserve).length := by
    unfold rest
    rw [length_firstBy]
    exact min_le_left _ _
  rw [claimBatch, List.length_append, List.length_append]
  omega

theorem checks_claimBatch :
    min (rows.filter checking).length (min (shareOf limit verifyReserve)
      (limit - (acq rows limit reserve).length)) ≤
    ((claimBatch rows limit reserve).filter fun row =>
      decide (row.priority = priorityVerify)).length := by
  have own : ((ver rows limit reserve).filter fun row =>
      decide (row.priority = priorityVerify)) = ver rows limit reserve := by
    rw [List.filter_eq_self]
    intro row taken
    exact decide_eq_true (checking_iff.mp (checking_of_mem_ver taken).2).2
  have part : (ver rows limit reserve).Sublist (claimBatch rows limit reserve) := by
    rw [claimBatch]
    exact (List.sublist_append_right _ _).trans (List.sublist_append_left _ _)
  have counted := (part.filter fun row => decide (row.priority = priorityVerify)).length_le
  rw [own, length_ver] at counted
  unfold verLimit at counted
  omega

/-- A claim short of its limit leaves no refresh row. -/
theorem refresh_taken (keyed : Keyed (·.nativeId) rows)
    (short : (claimBatch rows limit reserve).length < limit) {row : QueueRow} (held : row ∈ rows)
    (free : available row = true) (refresh : row.priority ≠ priorityNew) :
    row ∈ claimBatch rows limit reserve := by
  rw [mem_claimBatch_iff]
  by_cases checked : row ∈ ver rows limit reserve
  · exact .inr (.inl checked)
  · have apart : row.nativeId ∉ (ver rows limit reserve).map (·.nativeId) := by
      intro listed
      obtain ⟨other, taken, same⟩ := List.mem_map.mp listed
      have equal := keyed.eq (checking_of_mem_ver taken).1 held same
      exact checked (equal ▸ taken)
    refine .inr (.inr (mem_firstBy_of_short ?_ ?_))
    · exact List.mem_filter.mpr ⟨List.mem_filter.mpr ⟨held, free⟩,
        decide_eq_true ⟨refresh, apart⟩⟩
    · rw [claimBatch, List.length_append, List.length_append] at short
      unfold rest at short
      omega

theorem claimBatch_reserves (keyed : Keyed (·.nativeId) rows) (some_ : 1 ≤ limit)
    (nonneg : 0 ≤ reserve.value) (within : reserve.value ≤ 1) :
    ReservesKept rows limit reserve (claimBatch rows limit reserve) where
  distinct := claimBatch_nodup keyed limit reserve
  free := fun _ taken => mem_claimBatch taken
  within := length_claimBatch
  share := by
    rw [filter_new, length_acq, acqLimit_eq some_ nonneg, min_comm]
  whole := fun few => shareOf_le few within
  oldest := by
    intro taken first new row held waits out
    obtain ⟨free, priority⟩ := waiting_iff.mp waits
    refine le_of_mem_firstBy (mem_acq_iff.mpr ⟨first, new⟩) ?_ fun listed =>
      out (mem_acq_iff.mp listed).1
    exact List.mem_filter.mpr ⟨List.mem_filter.mpr ⟨held, free⟩, decide_eq_true priority⟩
  one := by
    intro reserved listed
    obtain ⟨row, taken⟩ := exists_mem_acq some_ reserved listed
    exact ⟨row, mem_acq_iff.mp taken⟩
  checks := by
    rw [filter_new]
    exact checks_claimBatch
  short := fun few _ held free refresh => refresh_taken keyed few held free refresh

end Claim

/-! ### A run of claims -/

/-- What may happen to the queue between two claims: a row left that was never fetched stays as it
is, one that comes is later than each of these. The refresh rows come, change and go. -/
structure RefreshInflow (rows next : List QueueRow) : Prop where
  keyed : Keyed (·.nativeId) next
  stays : ∀ row ∈ rows, waiting row = true → row ∈ next
  later : ∀ row ∈ next, waiting row = true →
    row ∈ rows ∨ ∀ left ∈ rows, waiting left = true → left.enqueuedAt < row.enqueuedAt

/-- The rows never fetched that a claim must take no later than `row`. -/
def ahead (rows : List QueueRow) (row : QueueRow) : List QueueRow :=
  rows.filter fun other => waiting other && decide (other.enqueuedAt ≤ row.enqueuedAt)

theorem mem_ahead {rows : List QueueRow} {row other : QueueRow} : other ∈ ahead rows row ↔
    other ∈ rows ∧ waiting other = true ∧ other.enqueuedAt ≤ row.enqueuedAt := by
  rw [ahead, List.mem_filter, Bool.and_eq_true, decide_eq_true_iff]

section Run

variable {limit : Nat} {reserve : Float64} {drain : Nat}

/-- A claim leaves the rows it did not take. -/
theorem waiting_after_claim {world : World} (keyed : Keyed (·.nativeId) world.rows)
    {row : QueueRow} :
    row ∈ (world.claimDetailBatch drain limit reserve).rows ∧ waiting row = true ↔
      (row ∈ world.rows ∧ waiting row = true) ∧ row ∉ claimBatch world.rows limit reserve := by
  unfold claimDetailBatch
  dsimp only
  rw [mem_updateRows]
  constructor
  · rintro ⟨⟨old, held, same⟩, waits⟩
    by_cases taken : old.nativeId ∈ (claimBatch world.rows limit reserve).map (·.nativeId)
    · rw [if_pos (decide_eq_true taken)] at same
      have free := (available_iff.mp (waiting_iff.mp waits).1).1
      rw [same] at free
      cases free
    · rw [if_neg (by simpa using taken)] at same
      subst same
      exact ⟨⟨held, waits⟩, fun listed => taken (List.mem_map_of_mem listed)⟩
  · rintro ⟨⟨held, waits⟩, left⟩
    refine ⟨⟨row, held, ?_⟩, waits⟩
    rw [if_neg]
    intro taken
    obtain ⟨other, listed, same⟩ := List.mem_map.mp (of_decide_eq_true taken)
    have equal := keyed.eq (mem_claimBatch listed).1 held same
    exact left (equal ▸ listed)

/-- A claim that does not take the row takes one ahead of it. -/
theorem ahead_falls {world : World} (keyed : Keyed (·.nativeId) world.rows) (some_ : 1 ≤ limit)
    (reserved : 0 < reserve.value) {row : QueueRow} (held : row ∈ world.rows)
    (waits : waiting row = true) (left : row ∉ claimBatch world.rows limit reserve)
    {next : List QueueRow}
    (inflow : RefreshInflow (world.claimDetailBatch drain limit reserve).rows next) :
    row ∈ next ∧ (ahead next row).length < (ahead world.rows row).length := by
  have stayed : row ∈ (world.claimDetailBatch drain limit reserve).rows ∧ waiting row = true :=
    (waiting_after_claim keyed).mpr ⟨⟨held, waits⟩, left⟩
  refine ⟨inflow.stays row stayed.1 waits, ?_⟩
  obtain ⟨taken, first⟩ := exists_mem_acq some_ reserved ⟨row, held, waits⟩
  have claimed := mem_acq_iff.mp first
  have older : taken.enqueuedAt ≤ row.enqueuedAt := by
    obtain ⟨free, new⟩ := waiting_iff.mp waits
    refine le_of_mem_firstBy first ?_ fun listed => left (mem_acq_iff.mp listed).1
    exact List.mem_filter.mpr ⟨List.mem_filter.mpr ⟨held, free⟩, decide_eq_true new⟩
  have passed : taken ∈ ahead world.rows row :=
    mem_ahead.mpr ⟨(waiting_of_mem_acq first).1, (waiting_of_mem_acq first).2, older⟩
  have within : (ahead next row).Subperm ((ahead world.rows row).erase taken) := by
    refine (inflow.keyed.nodup.filter _).subperm fun other listed => ?_
    obtain ⟨present, waiting_, before⟩ := mem_ahead.mp listed
    rcases inflow.later other present waiting_ with old | late
    · obtain ⟨⟨before_, _⟩, out⟩ := (waiting_after_claim keyed).mp ⟨old, waiting_⟩
      refine (List.mem_erase_of_ne ?_).mpr (mem_ahead.mpr ⟨before_, waiting_, before⟩)
      rintro rfl
      exact out claimed.1
    · exact absurd before (not_le.mpr (late row stayed.1 waits))
  have counted := within.length_le
  rw [List.length_erase_of_mem passed] at counted
  have some_ := List.length_pos_of_mem passed
  omega

/-- Claims after one another, the refresh traffic between them. -/
structure ClaimRun (limit : Nat) (reserve : Float64) (worlds : Nat → World) (drains : Nat → Nat) :
    Prop where
  keyed : Keyed (·.nativeId) (worlds 0).rows
  inflow : ∀ n, RefreshInflow ((worlds n).claimDetailBatch (drains n) limit reserve).rows
    (worlds (n + 1)).rows

variable {worlds : Nat → World} {drains : Nat → Nat}

theorem ClaimRun.later (run : ClaimRun limit reserve worlds drains) (m : Nat) :
    ClaimRun limit reserve (fun n => worlds (m + n)) (fun n => drains (m + n)) where
  keyed := by
    cases m with
    | zero => exact run.keyed
    | succ m => exact (run.inflow m).keyed
  inflow := fun n => run.inflow (m + n)

/-- Each claim brings the row nearer, so it is taken in the end. -/
theorem ClaimRun.taken (some_ : 1 ≤ limit) (reserved : 0 < reserve.value) {row : QueueRow}
    (waits : waiting row = true) {count : Nat} :
    ∀ {worlds : Nat → World} {drains : Nat → Nat}, ClaimRun limit reserve worlds drains →
      row ∈ (worlds 0).rows → (ahead (worlds 0).rows row).length ≤ count →
        ∃ n, row ∈ claimBatch (worlds n).rows limit reserve := by
  induction count with
  | zero =>
      intro worlds drains run held few
      have own : row ∈ ahead (worlds 0).rows row := mem_ahead.mpr ⟨held, waits, le_rfl⟩
      have counted := List.length_pos_of_mem own
      omega
  | succ count ih =>
      intro worlds drains run held few
      by_cases now : row ∈ claimBatch (worlds 0).rows limit reserve
      · exact ⟨0, now⟩
      · obtain ⟨stays, fewer⟩ := ahead_falls run.keyed some_ reserved held waits now (run.inflow 0)
        obtain ⟨n, taken⟩ := ih (run.later 1) stays
          (Nat.le_of_lt_succ (fewer.trans_le few))
        exact ⟨1 + n, taken⟩

end Run

/-- With no acquisition share a claim takes no row that was never fetched. -/
theorem not_mem_claimBatch_of_no_share {rows : List QueueRow} {limit : Nat} {reserve : Float64}
    {row : QueueRow} (none_ : reserve.value = 0) (waits : waiting row = true) :
    row ∉ claimBatch rows limit reserve := by
  intro taken
  have first := mem_acq_iff.mpr ⟨taken, (waiting_iff.mp waits).2⟩
  have empty : (acq rows limit reserve).length = 0 := by
    rw [length_acq, acqLimit, if_pos none_.le, Nat.zero_min]
  rw [List.length_eq_zero_iff.mp empty] at first
  cases first

/-- A claim keeps both reserves, and no refresh traffic keeps a row that was never fetched from
being claimed while the acquisition share is not none. -/
theorem claimDetailBatch_reserves {limit : Nat} {reserve : Float64} (some_ : 1 ≤ limit)
    (nonneg : 0 ≤ reserve.value) (within : reserve.value ≤ 1) :
    (∀ rows, Keyed (·.nativeId) rows →
      ReservesKept rows limit reserve (claimBatch rows limit reserve)) ∧
    (0 < reserve.value → ∀ worlds drains, ClaimRun limit reserve worlds drains →
      ∀ m, ∀ row ∈ (worlds m).rows, waiting row = true →
        ∃ n, m ≤ n ∧ row ∈ claimBatch (worlds n).rows limit reserve) ∧
    (reserve.value = 0 → ∀ rows, ∀ row, waiting row = true →
      row ∉ claimBatch rows limit reserve) := by
  refine ⟨fun rows keyed => claimBatch_reserves keyed some_ nonneg within, ?_, ?_⟩
  · intro reserved worlds drains run m row held waits
    obtain ⟨n, taken⟩ := ClaimRun.taken some_ reserved waits (run.later m) held le_rfl
    exact ⟨m + n, Nat.le_add_right m n, taken⟩
  · exact fun none_ rows row waits => not_mem_claimBatch_of_no_share none_ waits

/-! ### A queue of each kind -/

def queued (nativeId : String) (priority : Int) (enqueuedAt : ℚ) : QueueRow :=
  { nativeId := nativeId, detailRef := none, indexPriceCzk := none, priority := priority
    enqueuedAt := enqueuedAt }

def mixedQueue : World :=
  { now := 10, completions := [], nextCompletion := 0, history := [], holds := []
    rows := [queued "refresh" 5 0, queued "late" priorityNew 4, queued "check" priorityVerify 1,
      queued "early" priorityNew 2, queued "later" priorityNew 6,
      queued "recheck" priorityVerify 3, { queued "lost" priorityNew 0 with givenUp := true }] }

theorem keyed_mixedQueue : Keyed (·.nativeId) mixedQueue.rows := by
  unfold Keyed
  decide

/-- The claims of one drain with nothing between them. -/
def claimsOnly (world : World) (limit : Nat) (reserve : Float64) : Nat → World
  | 0 => world
  | n + 1 => (claimsOnly world limit reserve n).claimDetailBatch 0 limit reserve

theorem claimRun_claimsOnly {world : World} (keyed : Keyed (·.nativeId) world.rows) (limit : Nat)
    (reserve : Float64) : ClaimRun limit reserve (claimsOnly world limit reserve) fun _ => 0 where
  keyed := keyed
  inflow := fun n => by
    have kept : Keyed (·.nativeId) (claimsOnly world limit reserve (n + 1)).rows := by
      induction n with
      | zero => exact keyed.updateRows fun _ => rfl
      | succ n ih => exact ih.updateRows fun _ => rfl
    exact ⟨kept, fun row held _ => held, fun row held _ => .inl held⟩

theorem mixedQueue_claimed :
    (claimBatch mixedQueue.rows 4 acquisitionReserve).map (·.nativeId) =
      ["early", "late", "check", "refresh"] ∧
    ReservesKept mixedQueue.rows 4 acquisitionReserve
      (claimBatch mixedQueue.rows 4 acquisitionReserve) ∧
    ∃ n, queued "later" priorityNew 6 ∈
      claimBatch (claimsOnly mixedQueue 4 acquisitionReserve n).rows 4 acquisitionReserve := by
  have reserved : 0 < acquisitionReserve.value := by decide +kernel
  obtain ⟨kept, reached, _⟩ := @claimDetailBatch_reserves 4 acquisitionReserve (by decide)
    reserved.le (by decide +kernel)
  obtain ⟨n, _, taken⟩ := reached reserved _ _
    (claimRun_claimsOnly keyed_mixedQueue 4 acquisitionReserve) 0 (queued "later" priorityNew 6)
    (by decide) (by decide)
  exact ⟨by decide +kernel, kept _ keyed_mixedQueue, n, taken⟩

def noReserve : Float64 := .ofRat binary64 0

/-- A tenth, which a float has a little more of. -/
def tenthReserve : Float64 := .ofRat binary64 (1 / 10)

/-- A run of claims without an acquisition share never takes a row that was never fetched, and a
tenth of ten rows is one, where the exact product is past it. -/
theorem unfetched_starves :
    (∃ worlds drains, ClaimRun 1 noReserve worlds drains ∧
      ∃ row ∈ (worlds 0).rows, waiting row = true ∧
        ∀ n, row ∉ claimBatch (worlds n).rows 1 noReserve) ∧
    (claimBatch mixedQueue.rows 10 tenthReserve).countP
        (fun row => decide (row.priority = priorityNew)) = 1 ∧
      min (mixedQueue.rows.filter waiting).length ⌈10 * tenthReserve.value⌉₊ = 2 := by
  have waits : waiting (queued "early" priorityNew 2) = true := by decide
  refine ⟨⟨_, _, claimRun_claimsOnly keyed_mixedQueue 1 noReserve, queued "early" priorityNew 2,
    by decide, waits, fun n => ?_⟩, by decide +kernel, by decide +kernel⟩
  exact not_mem_claimBatch_of_no_share (by decide +kernel) waits

end World

end Sreality.Scraper.DetailQueue
