import Sreality.Scraper.DetailDrain

/-! Every claim of a drain meets one fate, and the counters add up to the claims kept. -/

set_option autoImplicit false

namespace Sreality.Scraper.DetailDrain

open DetailQueue (Claimed priorityNew priorityVerify)
open GoneVerdict (Verdict)

/-! ### The events of a claim -/

theorem eventsOf_append (log events : List Event) (claim : Claim) :
    eventsOf (log ++ events) claim = eventsOf log claim ++ eventsOf events claim :=
  List.filter_append ..

theorem eventsOf_eq_nil {events : List Event} {claim : Claim}
    (others : ∀ event ∈ events, event.claim? ≠ some claim) : eventsOf events claim = [] := by
  apply List.filter_eq_nil_iff.mpr
  intro event logged
  simpa using others event logged

theorem eventsOf_own {events : List Event} {claim : Claim}
    (own : ∀ event ∈ events, event.claim? = some claim) : eventsOf events claim = events := by
  apply List.filter_eq_self.mpr
  intro event logged
  simpa using own event logged

theorem Fate.own {claim : Claim} {events : List Event} (fate : Fate claim events) :
    ∀ event ∈ events, event.claim? = some claim := by
  intro event logged
  cases fate with
  | written =>
      simp only [List.mem_cons, List.not_mem_nil, or_false] at logged
      rcases logged with rfl | rfl <;> rfl
  | gone verdict =>
      cases List.mem_singleton.mp logged
      rfl
  | failure message =>
      simp only [List.mem_cons, List.not_mem_nil, or_false] at logged
      rcases logged with rfl | rfl <;> rfl
  | released =>
      cases List.mem_singleton.mp logged
      rfl

/-- A list of claims, each with an event of one form. -/
theorem eventsOf_map {event : Claim → Event} (own : ∀ claim, (event claim).claim? = some claim)
    {batch : List Claim} (distinct : batch.Nodup) {claim : Claim} (listed : claim ∈ batch) :
    eventsOf (batch.map event) claim = [event claim] := by
  induction batch with
  | nil => cases listed
  | cons first rest ih =>
      have apart := (List.nodup_cons.mp distinct).1
      rw [List.map_cons, ← List.singleton_append, eventsOf_append]
      by_cases same : first = claim
      · cases same
        have others : ∀ logged ∈ rest.map event, logged.claim? ≠ some claim := by
          intro logged member
          obtain ⟨other, held, rfl⟩ := List.mem_map.mp member
          rw [own other]
          intro equal
          cases equal
          exact apart held
        rw [eventsOf_eq_nil others, eventsOf_own (by simpa using own claim), List.append_nil]
      · have other : ∀ logged ∈ [event first], logged.claim? ≠ some claim := by
          intro logged member
          cases List.mem_singleton.mp member
          rw [own first]
          exact fun equal => same (Option.some.inj equal)
        rw [eventsOf_eq_nil other, List.nil_append]
        exact ih (List.nodup_cons.mp distinct).2
          ((List.mem_cons.mp listed).resolve_left fun equal => same equal.symm)

/-! ### Claims kept, claims waiting -/

theorem claimedIn_append (log events : List Event) :
    claimedIn (log ++ events) = claimedIn log ++ claimedIn events :=
  List.filterMap_append

theorem claimedIn_map_claimed (claims : List Claim) :
    claimedIn (claims.map .claimed) = claims := by
  unfold claimedIn
  rw [List.filterMap_map]
  exact List.filterMap_some

/-- The waiting claims have only been made, every other one has met its fate. -/
structure Books (known waiting : List Claim) (log : List Event) : Prop where
  distinct : waiting.Nodup
  mem : ∀ claim ∈ waiting, claim ∈ known
  untouched : ∀ claim ∈ waiting, eventsOf log claim = [.claimed claim]
  fate : ∀ claim ∈ known, claim ∉ waiting → Met claim (eventsOf log claim)
  noOther : ∀ event ∈ log, ∀ claim ∈ event.claim?, claim ∈ known

namespace Books

variable {known waiting : List Claim} {log events : List Event}

theorem perm {other : List Claim} (books : Books known waiting log)
    (reordered : waiting.Perm other) : Books known other log where
  distinct := reordered.nodup_iff.mp books.distinct
  mem claim held := books.mem claim (reordered.mem_iff.mpr held)
  untouched claim held := books.untouched claim (reordered.mem_iff.mpr held)
  fate claim kept free := books.fate claim kept fun held => free (reordered.mem_iff.mp held)
  noOther := books.noOther

/-- Entries about no claim. -/
theorem aside (books : Books known waiting log) (free : ∀ event ∈ events, event.claim? = none) :
    Books known waiting (log ++ events) := by
  have same : ∀ claim, eventsOf (log ++ events) claim = eventsOf log claim := by
    intro claim
    have none_ : eventsOf events claim = [] :=
      eventsOf_eq_nil fun event logged => by simp [free event logged]
    rw [eventsOf_append, none_, List.append_nil]
  constructor
  · exact books.distinct
  · exact books.mem
  · intro claim held
    rw [same]
    exact books.untouched claim held
  · intro claim kept untouched
    rw [same]
    exact books.fate claim kept untouched
  · intro event logged claim about
    rcases List.mem_append.mp logged with earlier | now
    · exact books.noOther event earlier claim about
    · rw [free event now] at about
      cases about

/-- A batch of the waiting claims meets its fates. -/
theorem settle {batch rest : List Claim} (books : Books known (batch ++ rest) log)
    (about : ∀ event ∈ events, ∃ claim ∈ batch, event.claim? = some claim)
    (fates : ∀ claim ∈ batch, Fate claim (eventsOf events claim)) :
    Books known rest (log ++ events) := by
  have apart := List.nodup_append.mp books.distinct
  have quiet : ∀ claim, claim ∉ batch → eventsOf events claim = [] := by
    intro claim free
    apply eventsOf_eq_nil
    intro event logged equal
    obtain ⟨other, held, named⟩ := about event logged
    rw [named] at equal
    cases equal
    exact free held
  constructor
  · exact apart.2.1
  · exact fun claim held => books.mem claim (List.mem_append_right _ held)
  · intro claim held
    have free : claim ∉ batch := fun listed => apart.2.2 claim listed claim held rfl
    rw [eventsOf_append, quiet claim free, List.append_nil]
    exact books.untouched claim (List.mem_append_right _ held)
  · intro claim kept free
    rw [eventsOf_append]
    by_cases listed : claim ∈ batch
    · rw [books.untouched claim (List.mem_append_left _ listed)]
      exact ⟨_, rfl, fates claim listed⟩
    · rw [quiet claim listed, List.append_nil]
      exact books.fate claim kept fun held =>
        (List.mem_append.mp held).elim listed free
  · intro event logged claim named
    rcases List.mem_append.mp logged with earlier | now
    · exact books.noOther event earlier claim named
    · obtain ⟨other, held, same⟩ := about event now
      rw [same] at named
      cases named
      exact books.mem _ (List.mem_append_left _ held)

/-- One waiting claim meets its fate. -/
theorem settleOne {claim : Claim} {rest : List Claim} (books : Books known (claim :: rest) log)
    (fate : Fate claim events) : Books known rest (log ++ events) := by
  apply @settle known log events [claim] rest books
  · exact fun event logged => ⟨claim, by simp, fate.own event logged⟩
  · intro other listed
    cases List.mem_singleton.mp listed
    rw [eventsOf_own fate.own]
    exact fate

/-- New claims join the waiting ones. -/
theorem take {more : List Claim} (books : Books known waiting log) (distinct : more.Nodup)
    (fresh : ∀ claim ∈ more, claim ∉ known) :
    Books (known ++ more) (more ++ waiting) (log ++ more.map .claimed) := by
  have earlier : ∀ claim ∈ more, eventsOf log claim = [] := by
    intro claim listed
    apply eventsOf_eq_nil
    exact fun event logged named => fresh claim listed (books.noOther event logged claim named)
  have others : ∀ claim ∈ known, eventsOf (more.map .claimed) claim = [] := by
    intro claim kept
    apply eventsOf_eq_nil
    intro event logged named
    obtain ⟨other, listed, rfl⟩ := List.mem_map.mp logged
    cases named
    exact fresh claim listed kept
  constructor
  · exact List.nodup_append.mpr ⟨distinct, books.distinct, fun claim listed other held same =>
      fresh claim listed (same ▸ books.mem other held)⟩
  · intro claim held
    rcases List.mem_append.mp held with listed | earlier
    · exact List.mem_append_right _ listed
    · exact List.mem_append_left _ (books.mem claim earlier)
  · intro claim held
    rw [eventsOf_append]
    rcases List.mem_append.mp held with listed | waits
    · rw [earlier claim listed, eventsOf_map (fun _ => rfl) distinct listed, List.nil_append]
    · rw [others claim (books.mem claim waits), List.append_nil]
      exact books.untouched claim waits
  · intro claim kept free
    rcases List.mem_append.mp kept with held | listed
    · rw [eventsOf_append, others claim held, List.append_nil]
      exact books.fate claim held fun held => free (List.mem_append_right _ held)
    · exact absurd (List.mem_append_left _ listed) free
  · intro event logged claim named
    rcases List.mem_append.mp logged with before | now
    · exact List.mem_append_left _ (books.noOther event before claim named)
    · obtain ⟨other, listed, rfl⟩ := List.mem_map.mp now
      cases named
      exact List.mem_append_right _ listed

end Books

/-! ### The claims of the chunks -/

theorem claims_succ {chunks : List Chunk} {laps : Nat} {chunk : Chunk}
    (next : chunks[laps]? = some chunk) :
    claims chunks (laps + 1) =
      claims chunks laps ++ chunk.claimed.map fun row => ⟨laps, row.nativeId⟩ := by
  have short : laps < chunks.length := (List.getElem?_eq_some_iff.mp next).1
  have long : (chunks.take laps).length = laps := by
    rw [List.length_take]
    omega
  unfold claims
  rw [List.take_add_one, next, List.zipIdx_append, List.flatMap_append, long]
  simp

theorem lap_of_mem_claims {chunks : List Chunk} {laps : Nat} {claim : Claim}
    (kept : claim ∈ claims chunks laps) : claim.lap < laps := by
  obtain ⟨⟨chunk, lap⟩, listed, named⟩ := List.mem_flatMap.mp kept
  obtain ⟨row, _, rfl⟩ := List.mem_map.mp named
  have bound := List.snd_lt_of_mem_zipIdx listed
  rw [List.length_take] at bound
  dsimp only at bound ⊢
  omega

theorem lap_claims_nodup (chunk : Chunk) (lap : Nat) :
    (chunk.claimed.map fun row => (⟨lap, row.nativeId⟩ : Claim)).Nodup := by
  have moved := chunk.distinct.map (f := fun nativeId => (⟨lap, nativeId⟩ : Claim)) fun first second same => (Claim.mk.inj same).2
  rwa [List.map_map] at moved

theorem lap_claims_fresh (chunks : List Chunk) (chunk : Chunk) (lap : Nat) :
    ∀ claim ∈ chunk.claimed.map fun row => (⟨lap, row.nativeId⟩ : Claim),
      claim ∉ claims chunks lap := by
  intro claim listed kept
  obtain ⟨row, _, rfl⟩ := List.mem_map.mp listed
  exact absurd (lap_of_mem_claims kept) (Nat.lt_irrefl lap)

theorem claims_nodup (chunks : List Chunk) (laps : Nat) : (claims chunks laps).Nodup := by
  induction laps with
  | zero => exact List.nodup_nil
  | succ lap ih =>
      cases current : chunks[lap]? with
      | none =>
          have short : chunks.length ≤ lap := List.getElem?_eq_none_iff.mp current
          unfold claims at ih ⊢
          rw [List.take_of_length_le (by omega)] at ih ⊢
          exact ih
      | some chunk =>
          rw [claims_succ current]
          exact List.nodup_append.mpr ⟨ih, lap_claims_nodup chunk lap, fun claim kept other listed
            same => lap_claims_fresh chunks chunk lap other listed (same ▸ kept)⟩

/-! ### The state of a run -/

/-- The claims whose outcome is still with the run, `pending` being those being fetched. -/
def Drain.waiting (drain : Drain) (pending : List Claim) : List Claim :=
  pending ++ (drain.buffer.map Prod.fst ++ drain.deferred)

structure Sound (chunks : List Chunk) (lap : Nat) (known pending : List Claim)
    (drain : Drain) : Prop where
  laps : drain.laps = lap
  taken : claimedIn drain.log = known
  total : known.length = drain.totalClaimed
  books : Books known (drain.waiting pending) drain.log
  counted : drain.counts.handled + (drain.waiting pending).length = known.length
  errors : ∀ claim ∈ drain.deferred, RefusedError chunks claim
  unreleased : ∀ claim, .released claim ∉ drain.log
  tripped : .tripped ∈ drain.log → drain.breaker.tripped = true
  quiet : drain.log.Pairwise fun earlier later =>
    earlier = .tripped → later.isGoneVerdict = false

/-- What the entries of one step must not be. -/
structure Plain (drain : Drain) (events : List Event) : Prop where
  unclaimed : claimedIn events = []
  unreleased : ∀ claim, .released claim ∉ events
  untripped : .tripped ∉ events
  calm : drain.breaker.tripped = true → ∀ event ∈ events, event.isGoneVerdict = false

theorem quiet_append {log events : List Event} (quiet : log.Pairwise fun earlier later =>
      earlier = .tripped → later.isGoneVerdict = false)
    (untripped : .tripped ∉ events)
    (calm : .tripped ∈ log → ∀ event ∈ events, event.isGoneVerdict = false) :
    (log ++ events).Pairwise fun earlier later =>
      earlier = .tripped → later.isGoneVerdict = false := by
  apply List.pairwise_append.mpr
  refine ⟨quiet, ?_, ?_⟩
  · apply List.Pairwise.imp_of_mem _ (List.pairwise_of_forall fun _ _ => trivial)
    intro earlier later logged _ _ equal
    exact absurd (equal ▸ logged) untripped
  · intro earlier logged later now equal
    exact calm (equal ▸ logged) later now

theorem Plain.taken {drain : Drain} {events : List Event} (plain : Plain drain events) :
    claimedIn (drain.log ++ events) = claimedIn drain.log := by
  rw [claimedIn_append, plain.unclaimed, List.append_nil]

/-- The breaker trips at most once, and stays tripped. -/
theorem GoneRateBreaker.observe_cases (breaker : GoneRateBreaker) (priority : Int) (kind : Kind) :
    ((breaker.observe priority kind).2 = false ∧
        (breaker.observe priority kind).1.tripped = breaker.tripped) ∨
      ((breaker.observe priority kind).2 = true ∧ breaker.tripped = false ∧
        (breaker.observe priority kind).1.tripped = true) := by
  unfold GoneRateBreaker.observe
  dsimp only
  split
  · exact .inl ⟨rfl, rfl⟩
  · next counted =>
      split
      · refine .inr ⟨rfl, ?_, rfl⟩
        simpa using fun tripped => counted (.inr tripped)
      · exact .inl ⟨rfl, rfl⟩

namespace Sound

variable {chunks : List Chunk} {lap : Nat} {known pending : List Claim} {drain : Drain}
  {claim : Claim}

/-- One pending claim is counted and meets its fate. -/
theorem settleOne (sound : Sound chunks lap known (claim :: pending) drain) {counts : Counts}
    (more : counts.handled = drain.counts.handled + 1) {events : List Event}
    (fate : Fate claim events) (plain : Plain drain events) :
    Sound chunks lap known pending ({ drain with counts := counts }.note events) := by
  constructor
  · exact sound.laps
  · exact plain.taken.trans sound.taken
  · exact sound.total
  · exact sound.books.settleOne fate
  · have counted := sound.counted
    simp only [Drain.waiting, Drain.note, List.cons_append, List.length_cons] at counted ⊢
    omega
  · exact sound.errors
  · intro other logged
    exact (List.mem_append.mp logged).elim (sound.unreleased other) (plain.unreleased other)
  · intro logged
    exact (List.mem_append.mp logged).elim sound.tripped fun now => absurd now plain.untripped
  · exact quiet_append sound.quiet plain.untripped fun logged => plain.calm (sound.tripped logged)

theorem countFailure (sound : Sound chunks lap known (claim :: pending) drain)
    (message : String) : Sound chunks lap known pending (drain.countFailure claim message) := by
  apply sound.settleOne
  · simp only [Counts.handled, Tally.outcomes]
    omega
  · exact .failure message
  · constructor
    · rfl
    · simp
    · simp
    · simp [Event.isGoneVerdict]

theorem countVerdict (sound : Sound chunks lap known (claim :: pending) drain)
    (verdict : Verdict) (untripped : drain.breaker.tripped ≠ true) :
    Sound chunks lap known pending (drain.countVerdict claim verdict) := by
  apply sound.settleOne
  · split <;> simp only [Counts.handled, Tally.outcomes] <;> omega
  · exact .gone verdict
  · constructor
    · rfl
    · simp
    · simp
    · exact fun tripped => absurd tripped untripped

theorem observe (sound : Sound chunks lap known pending drain) (priority : Int) (kind : Kind) :
    Sound chunks lap known pending (drain.observe priority kind) := by
  have cases_ := GoneRateBreaker.observe_cases drain.breaker priority kind
  unfold Drain.observe
  generalize drain.breaker.observe priority kind = observed at cases_ ⊢
  obtain ⟨breaker, trips⟩ := observed
  have free : ∀ trips : Bool, ∀ event ∈ (if trips then [Event.tripped] else []),
      event = .tripped ∧ trips = true := by
    intro trips event logged
    cases trips with
    | false => cases logged
    | true => exact ⟨List.mem_singleton.mp logged, rfl⟩
  constructor
  · exact sound.laps
  · refine Eq.trans ?_ sound.taken
    cases trips <;> simp [Drain.note, claimedIn, Event.claimed?]
  · exact sound.total
  · apply sound.books.aside
    intro event logged
    rw [(free _ event logged).1]
    rfl
  · exact sound.counted
  · exact sound.errors
  · intro claim logged
    rcases List.mem_append.mp logged with earlier | now
    · exact sound.unreleased claim earlier
    · cases (free _ _ now).1
  · intro logged
    rcases cases_ with ⟨quiet, same⟩ | ⟨_, _, tripped⟩
    · rcases List.mem_append.mp logged with earlier | now
      · exact same.trans (sound.tripped earlier)
      · exact absurd ((free _ _ now).2.symm.trans quiet) (by decide)
    · exact tripped
  · apply List.pairwise_append.mpr
    refine ⟨sound.quiet, ?_, ?_⟩
    · cases trips with
      | false => exact .nil
      | true => exact List.pairwise_singleton ..
    · intro _ _ later now _
      rw [(free _ later now).1]
      rfl

theorem defer (sound : Sound chunks lap known (claim :: pending) drain)
    (refused : RefusedError chunks claim) :
    Sound chunks lap known pending { drain with deferred := drain.deferred ++ [claim] } := by
  constructor
  · exact sound.laps
  · exact sound.taken
  · exact sound.total
  · apply sound.books.perm
    simp only [Drain.waiting, ← List.append_assoc]
    exact @List.perm_append_comm _ [claim] _
  · have counted := sound.counted
    simp only [Drain.waiting, List.length_append, List.length_cons, List.length_nil] at counted ⊢
    omega
  · intro other held
    rcases List.mem_append.mp held with earlier | now
    · exact sound.errors other earlier
    · cases List.mem_singleton.mp now
      exact refused
  · exact sound.unreleased
  · exact sound.tripped
  · exact sound.quiet

theorem keep (sound : Sound chunks lap known (claim :: pending) drain) (item : DrainItem) :
    Sound chunks lap known pending { drain with buffer := drain.buffer ++ [(claim, item)] } := by
  constructor
  · exact sound.laps
  · exact sound.taken
  · exact sound.total
  · apply sound.books.perm
    simp only [Drain.waiting, List.map_append, List.map_cons, List.map_nil, ← List.append_assoc]
    apply List.Perm.append_right
    exact @List.perm_append_comm _ [claim] _
  · have counted := sound.counted
    simp only [Drain.waiting, List.length_append, List.length_cons, List.length_nil,
      List.length_map] at counted ⊢
    omega
  · exact sound.errors
  · exact sound.unreleased
  · exact sound.tripped
  · exact sound.quiet

end Sound

/-! ### Writing a batch -/

theorem wrote_completed_fate {batch : List Claim} (distinct : batch.Nodup) :
    ∀ claim ∈ batch, Fate claim
      (eventsOf (batch.map Event.wrote ++ batch.map Event.completed) claim) := by
  intro claim listed
  rw [eventsOf_append, eventsOf_map (fun _ => rfl) distinct listed,
    eventsOf_map (fun _ => rfl) distinct listed]
  exact .written

theorem wrote_completed_about {batch : List Claim} :
    ∀ event ∈ batch.map Event.wrote ++ batch.map Event.completed,
      ∃ claim ∈ batch, event.claim? = some claim := by
  intro event logged
  rcases List.mem_append.mp logged with wrote | completed
  · obtain ⟨claim, listed, rfl⟩ := List.mem_map.mp wrote
    exact ⟨claim, listed, rfl⟩
  · obtain ⟨claim, listed, rfl⟩ := List.mem_map.mp completed
    exact ⟨claim, listed, rfl⟩

theorem wrote_completed_calm {batch : List Claim} :
    ∀ event ∈ batch.map Event.wrote ++ batch.map Event.completed,
      event.isGoneVerdict = false := by
  intro event logged
  rcases List.mem_append.mp logged with wrote | completed
  · obtain ⟨claim, _, rfl⟩ := List.mem_map.mp wrote
    rfl
  · obtain ⟨claim, _, rfl⟩ := List.mem_map.mp completed
    rfl

theorem wrote_completed_plain (drain : Drain) (batch : List Claim) :
    Plain drain (batch.map Event.wrote ++ batch.map Event.completed) := by
  constructor
  · apply List.filterMap_eq_nil_iff.mpr
    intro event logged
    rcases List.mem_append.mp logged with wrote | completed
    · obtain ⟨claim, _, rfl⟩ := List.mem_map.mp wrote
      rfl
    · obtain ⟨claim, _, rfl⟩ := List.mem_map.mp completed
      rfl
  · simp
  · simp
  · exact fun _ => wrote_completed_calm

/-- `write_details` answers for each item. -/
def Portal.Answers (portal : Portal) : Prop :=
  ∀ log items, (portal.writeDetails log items).outcomes = items.length

theorem Counts.handled_add (counts : Counts) (tally : Tally) :
    (counts.add tally).handled = counts.handled + tally.outcomes := by
  simp only [Counts.handled, Counts.add, Tally.outcomes]
  omega

section Run

variable {portal : Portal} {settings : Settings} {chunks : List Chunk} {lap : Nat}
  {known pending : List Claim} {drain : Drain} {claim : Claim}

/-- The buffer a flush leaves behind is written, or was empty. -/
theorem flush_cases (real : settings.dryRun = false) :
    (drain.buffer = [] ∧ drain.flushDrainBatch portal settings = drain) ∨
      drain.flushDrainBatch portal settings =
        { drain with
          counts := drain.counts.add
            (portal.writeDetails drain.log (drain.buffer.map Prod.snd)) }.note
          ((drain.buffer.map Prod.fst).map Event.wrote ++
            (drain.buffer.map Prod.fst).map Event.completed) := by
  unfold Drain.flushDrainBatch
  by_cases empty : drain.buffer = []
  · exact .inl ⟨empty, if_pos (.inl empty)⟩
  · exact .inr (if_neg (by simp [empty, real]))

theorem Sound.flush (sound : Sound chunks lap known pending drain)
    (real : settings.dryRun = false) (answers : portal.Answers) :
    Sound chunks lap known pending { drain.flushDrainBatch portal settings with buffer := [] } := by
  rcases @flush_cases portal settings drain real with ⟨empty, same⟩ | written
  · rw [same]
    have unchanged : { drain with buffer := [] } = drain := by rw [← empty]
    rw [unchanged]
    exact sound
  · rw [written]
    have books : Books known (drain.buffer.map Prod.fst ++ (pending ++ drain.deferred)) drain.log :=
      sound.books.perm (by
        simp only [Drain.waiting, ← List.append_assoc]
        exact List.Perm.append_right _ List.perm_append_comm)
    have plain := wrote_completed_plain drain (drain.buffer.map Prod.fst)
    constructor
    · exact sound.laps
    · exact plain.taken.trans sound.taken
    · exact sound.total
    · exact books.settle wrote_completed_about
        (wrote_completed_fate (List.nodup_append.mp books.distinct).1)
    · have counted := sound.counted
      simp only [Drain.waiting, Drain.note, List.length_append, List.length_map, List.map_nil,
        List.nil_append, Counts.handled_add, answers drain.log] at counted ⊢
      omega
    · exact sound.errors
    · intro other logged
      exact (List.mem_append.mp logged).elim (sound.unreleased other) (plain.unreleased other)
    · intro logged
      exact (List.mem_append.mp logged).elim sound.tripped fun now => absurd now plain.untripped
    · exact quiet_append sound.quiet plain.untripped fun logged =>
        plain.calm (sound.tripped logged)

theorem Sound.hold (sound : Sound chunks lap known (claim :: pending) drain)
    (real : settings.dryRun = false) (answers : portal.Answers) (item : DrainItem) :
    Sound chunks lap known pending (drain.hold portal settings claim item) := by
  unfold Drain.hold
  dsimp only
  split
  · exact (sound.keep item).flush real answers
  · exact sound.keep item

theorem Sound.settle (sound : Sound chunks lap known (claim :: pending) drain)
    (real : settings.dryRun = false) (answers : portal.Answers) (item : DrainItem)
    (recorded : Except String Verdict) :
    Sound chunks lap known pending (drain.settle portal settings claim item recorded) := by
  unfold Drain.settle
  cases item.kind with
  | ok => exact sound.hold real answers item
  | gone =>
      by_cases tripped : drain.breaker.tripped = true
      · simp only [if_pos tripped]
        exact sound.countFailure _
      · simp only [if_neg tripped]
        cases recorded with
        | ok verdict => exact sound.countVerdict verdict tripped
        | error flipError => exact sound.countFailure _
  | error => exact sound.countFailure _

theorem Sound.receive {chunk : Chunk} {fetched : Fetched}
    (sound : Sound chunks lap known (⟨lap, fetched.item.nativeId⟩ :: pending) drain)
    (real : settings.dryRun = false) (answers : portal.Answers)
    (current : chunks[lap]? = some chunk) (mine : fetched ∈ chunk.fetched) :
    Sound chunks lap known pending (drain.receive portal settings chunk fetched) := by
  obtain rfl := sound.laps
  unfold Drain.receive
  dsimp only
  by_cases refused : fetched.item.kind = .error ∧ fetched.refused = true
  · rw [if_pos refused]
    exact sound.defer ⟨chunk, current, fetched, mine, rfl, refused⟩
  · rw [if_neg refused]
    exact (sound.observe _ _).settle real answers _ _

/-- The fetches of a chunk, in the order they complete. -/
theorem Sound.fetches {chunk : Chunk} (real : settings.dryRun = false) (answers : portal.Answers)
    (current : chunks[lap]? = some chunk) {rest : List Fetched} (mine : rest ⊆ chunk.fetched)
    (sound : Sound chunks lap known
      (rest.map fun fetched => ⟨lap, fetched.item.nativeId⟩) drain) :
    Sound chunks lap known [] (rest.foldl (Drain.receive portal settings chunk) drain) := by
  induction rest generalizing drain with
  | nil => exact sound
  | cons fetched rest ih =>
      apply ih fun other listed => mine (List.mem_cons_of_mem _ listed)
      exact sound.receive real answers current (mine List.mem_cons_self)

/-- A chunk with its fetches handled; the next one comes with the next lap. -/
theorem Sound.chunk {chunk : Chunk} (real : settings.dryRun = false) (answers : portal.Answers)
    (current : chunks[lap]? = some chunk)
    (sound : Sound chunks lap (claims chunks lap) [] drain) :
    Sound chunks (lap + 1) (claims chunks (lap + 1)) []
      (drain.drainChunk portal settings chunk) := by
  have reordered : (chunk.claimed.map fun row => (⟨lap, row.nativeId⟩ : Claim)).Perm
      (chunk.fetched.map fun fetched => ⟨lap, fetched.item.nativeId⟩) := by
    have moved := chunk.complete.symm.map fun nativeId => (⟨lap, nativeId⟩ : Claim)
    rwa [List.map_map, List.map_map] at moved
  have begun : Sound chunks lap (claims chunks (lap + 1))
      (chunk.fetched.map fun fetched => ⟨lap, fetched.item.nativeId⟩)
      (drain.claim chunk) := by
    have taken : (chunk.claimed.map fun row => Event.claimed ⟨drain.laps, row.nativeId⟩) =
        (chunk.claimed.map fun row => ⟨lap, row.nativeId⟩).map .claimed := by
      rw [sound.laps, List.map_map]
      rfl
    have quiet : (drain.log ++ (chunk.claimed.map fun row =>
        (⟨lap, row.nativeId⟩ : Claim)).map Event.claimed).Pairwise fun earlier later =>
          earlier = .tripped → later.isGoneVerdict = false := by
      apply quiet_append sound.quiet
      · simp
      · intro _ event logged
        obtain ⟨claim, _, rfl⟩ := List.mem_map.mp logged
        rfl
    unfold Drain.claim
    rw [taken, claims_succ current]
    constructor
    · exact sound.laps
    · rw [Drain.note, claimedIn_append, sound.taken, claimedIn_map_claimed]
    · rw [List.length_append, List.length_map, sound.total]
      rfl
    · exact (sound.books.take (lap_claims_nodup chunk lap)
        (lap_claims_fresh chunks chunk lap)).perm (reordered.append_right _)
    · have counted := sound.counted
      have same := reordered.length_eq
      simp only [Drain.waiting, Drain.note, List.length_append, List.length_map,
        List.length_nil] at counted same ⊢
      omega
    · exact sound.errors
    · simpa [Drain.note] using sound.unreleased
    · simpa [Drain.note] using sound.tripped
    · exact quiet
  have fetched := begun.fetches real answers current (List.Subset.refl _)
  constructor
  · exact congrArg (· + 1) sound.laps
  · exact fetched.taken
  · exact fetched.total
  · exact fetched.books
  · exact fetched.counted
  · exact fetched.errors
  · exact fetched.unreleased
  · exact fetched.tripped
  · exact fetched.quiet

/-! ### The exits of the loop -/

/-- The run past its loop: what is not written yet stands in the buffer. -/
structure Closing (settings : Settings) (chunks : List Chunk) (drain : Drain) : Prop where
  taken : claimedIn drain.log = claims chunks drain.laps
  total : (claims chunks drain.laps).length = drain.totalClaimed
  stopped : Stopped settings chunks drain
  books : Books (claims chunks drain.laps) (drain.buffer.map Prod.fst) drain.log
  counted : drain.counts.handled + drain.buffer.length +
    ((claims chunks drain.laps).filter fun claim => decide (.released claim ∈ drain.log)).length =
      (claims chunks drain.laps).length
  refused : ∀ claim, .released claim ∈ drain.log → RefusedError chunks claim
  quiet : drain.log.Pairwise fun earlier later =>
    earlier = .tripped → later.isGoneVerdict = false

theorem RefusedError.latched {chunk : Chunk} (refused : RefusedError chunks claim)
    (current : chunks[claim.lap]? = some chunk) : chunk.refused = true := by
  obtain ⟨other, found, fetched, mine, _, _, flag⟩ := refused
  rw [current] at found
  cases found
  exact (List.pairwise_append.mp chunk.latched).2.2 fetched.refused
    (List.mem_map_of_mem mine) chunk.refused (List.mem_singleton_self _) flag

/-- With no refusal so far nothing was deferred. -/
theorem Sound.none_deferred (sound : Sound chunks lap (claims chunks lap) [] drain)
    (onward : ∀ earlier chunk, earlier < lap → chunks[earlier]? = some chunk →
      chunk.refused = false) : drain.deferred = [] := by
  apply List.eq_nil_iff_forall_not_mem.mpr
  intro claim held
  have kept : claim ∈ claims chunks lap :=
    sound.books.mem claim (List.mem_append_right _ (List.mem_append_right _ held))
  obtain ⟨chunk, current, fetched⟩ := sound.errors claim held
  have calm := onward claim.lap chunk (lap_of_mem_claims kept) current
  have flagged := RefusedError.latched ⟨chunk, current, fetched⟩ current
  rw [calm] at flagged
  cases flagged

theorem Sound.closing (sound : Sound chunks lap (claims chunks lap) [] drain)
    (none_ : drain.deferred = []) (stopped : Stopped settings chunks drain) :
    Closing settings chunks drain := by
  obtain rfl := sound.laps
  have books := sound.books
  have counted := sound.counted
  simp only [Drain.waiting, none_, List.nil_append, List.append_nil] at books counted
  constructor
  · exact sound.taken
  · exact sound.total
  · exact stopped
  · exact books
  · have untouched : (claims chunks drain.laps).filter
        (fun claim => decide (.released claim ∈ drain.log)) = [] := by
      apply List.filter_eq_nil_iff.mpr
      intro claim _
      simpa using sound.unreleased claim
    rw [untouched]
    simpa using counted
  · exact fun claim logged => absurd logged (sound.unreleased claim)
  · exact sound.quiet

/-- The exit of a refusal hands the deferred claims back. -/
theorem Sound.release (sound : Sound chunks lap (claims chunks lap) [] drain)
    (stopped : Stopped settings chunks drain) :
    Closing settings chunks drain.releaseClaims := by
  obtain rfl := sound.laps
  have batch : Books (claims chunks drain.laps) (drain.deferred ++ drain.buffer.map Prod.fst)
      drain.log := sound.books.perm (by
    simp only [Drain.waiting, List.nil_append]
    exact List.perm_append_comm)
  have distinct := (List.nodup_append.mp batch.distinct).1
  have handed : ∀ claim, .released claim ∈ drain.log ++ drain.deferred.map Event.released ↔
      claim ∈ drain.deferred := by
    intro claim
    simp [sound.unreleased claim]
  have unclaimed : claimedIn (drain.deferred.map Event.released) = [] := by
    apply List.filterMap_eq_nil_iff.mpr
    intro event logged
    obtain ⟨claim, _, rfl⟩ := List.mem_map.mp logged
    rfl
  constructor
  · exact (claimedIn_append ..).trans ((congrArg _ unclaimed).trans
      ((List.append_nil _).trans sound.taken))
  · exact sound.total
  · exact stopped
  · apply batch.settle
    · intro event logged
      obtain ⟨claim, held, rfl⟩ := List.mem_map.mp logged
      exact ⟨claim, held, rfl⟩
    · intro claim held
      rw [eventsOf_map (fun _ => rfl) distinct held]
      exact .released
  · have back : ((claims chunks drain.laps).filter fun claim =>
        decide (.released claim ∈ drain.log ++ drain.deferred.map Event.released)).Perm
          drain.deferred := by
      apply (List.perm_ext_iff_of_nodup ((claims_nodup _ _).filter _) distinct).mpr
      intro claim
      rw [List.mem_filter, decide_eq_true_iff, handed claim]
      exact and_iff_right_of_imp fun held => batch.mem claim (List.mem_append_left _ held)
    have counted := sound.counted
    simp only [Drain.waiting, List.length_append, List.length_map, List.length_nil] at counted
    have total : drain.counts.handled + drain.buffer.length + drain.deferred.length =
        (claims chunks drain.laps).length := by omega
    rw [← back.length_eq] at total
    exact total
  · exact fun claim logged => sound.errors claim ((handed claim).mp logged)
  · apply quiet_append sound.quiet
    · simp
    · intro _ event logged
      obtain ⟨claim, _, rfl⟩ := List.mem_map.mp logged
      rfl

theorem loop_closing (real : settings.dryRun = false) (answers : portal.Answers)
    {rest : List Chunk} (left : chunks.drop lap = rest)
    (onward : ∀ earlier chunk, earlier < lap → chunks[earlier]? = some chunk →
      chunk.refused = false)
    (sound : Sound chunks lap (claims chunks lap) [] drain) :
    Closing settings chunks (drain.loop portal settings rest) := by
  have current : chunks[drain.laps]? = rest.head? := by
    rw [sound.laps, ← List.head?_drop, left]
  induction rest generalizing lap drain with
  | nil =>
      apply sound.closing (sound.none_deferred onward)
      refine .inr (.inl fun chunk listed => ?_)
      rw [current] at listed
      cases listed
  | cons chunk rest ih =>
      rw [sound.laps] at current
      have next : chunks.drop (lap + 1) = rest := by
        rw [← List.drop_drop, left]
        rfl
      unfold Drain.loop
      split
      · next stops =>
          apply sound.closing (sound.none_deferred onward)
          refine stops.imp_right fun ends => .inl fun other listed => ?_
          rw [sound.laps, current] at listed
          cases listed
          exact ends
      · dsimp only
        have after := sound.chunk real answers current
        by_cases refused : chunk.refused = true
        · rw [if_pos refused]
          exact after.release (.inr (.inr ⟨lap, chunk, after.laps, current, refused⟩))
        · rw [if_neg refused]
          apply ih next _ after
          · rw [after.laps, ← List.head?_drop, next]
          · intro earlier other before found
            rcases Nat.lt_succ_iff_lt_or_eq.mp before with lower | rfl
            · exact onward earlier other lower found
            · rw [current] at found
              cases found
              simpa using refused

/-- The last flush. -/
theorem Closing.accounted (closing : Closing settings chunks drain)
    (real : settings.dryRun = false) (answers : portal.Answers) :
    Accounted settings chunks (drain.flushDrainBatch portal settings) := by
  have distinct := claims_nodup chunks drain.laps
  rcases @flush_cases portal settings drain real with ⟨empty, same⟩ | written
  · rw [same]
    have books := closing.books
    have counted := closing.counted
    rw [empty] at books counted
    rw [← closing.taken] at books counted distinct
    have total := closing.total
    rw [← closing.taken] at total
    constructor
    · exact closing.taken
    · exact total
    · exact fun _ => closing.stopped
    · exact distinct
    · exact fun claim kept => books.fate claim kept List.not_mem_nil
    · exact books.noOther
    · exact closing.refused
    · exact closing.quiet
    · rw [← total, ← counted]
      exact (Nat.add_sub_cancel ..).symm
  · rw [written]
    have plain := wrote_completed_plain drain (drain.buffer.map Prod.fst)
    have taken := plain.taken.trans closing.taken
    have books : Books (claims chunks drain.laps) []
        (drain.log ++ ((drain.buffer.map Prod.fst).map Event.wrote ++
          (drain.buffer.map Prod.fst).map Event.completed)) := by
      apply @Books.settle _ _ _ (drain.buffer.map Prod.fst) []
      · rw [List.append_nil]
        exact closing.books
      · exact wrote_completed_about
      · exact wrote_completed_fate closing.books.distinct
    have released : ∀ claim, .released claim ∈ drain.log ++
        ((drain.buffer.map Prod.fst).map Event.wrote ++
          (drain.buffer.map Prod.fst).map Event.completed) ↔ .released claim ∈ drain.log := by
      intro claim
      rw [List.mem_append]
      exact or_iff_left (plain.unreleased claim)
    have counted := closing.counted
    have items := answers drain.log (drain.buffer.map Prod.snd)
    have total := closing.total
    rw [← taken] at books distinct total counted
    constructor
    · exact taken
    · exact total
    · exact fun _ => closing.stopped
    · exact distinct
    · exact fun claim kept => books.fate claim kept List.not_mem_nil
    · exact books.noOther
    · exact fun claim logged => closing.refused claim ((released claim).mp logged)
    · exact quiet_append closing.quiet plain.untripped fun _ => wrote_completed_calm
    · simp only [Drain.note, released, Counts.handled_add, items, List.length_map]
      rw [← total]
      omega

end Run

theorem drain_accounts (portal : Portal) (settings : Settings) (chunks : List Chunk)
    (answers : portal.Answers) :
    Accounted settings chunks (runDetailDrain portal settings chunks) := by
  unfold runDetailDrain
  by_cases dry : settings.dryRun = true
  · rw [if_pos dry]
    constructor
    · rfl
    · rfl
    · exact fun real => absurd (dry.symm.trans real) (by decide)
    · exact List.nodup_nil
    · exact fun _ kept => absurd kept List.not_mem_nil
    · exact fun _ logged => absurd logged List.not_mem_nil
    · exact fun _ logged => absurd logged List.not_mem_nil
    · exact List.Pairwise.nil
    · rfl
  · rw [if_neg dry]
    have real : settings.dryRun = false := by simpa using dry
    apply Closing.accounted _ real answers
    apply @loop_closing _ _ _ 0 _ real answers _ rfl
    · exact fun earlier _ before => absurd before (Nat.not_lt_zero earlier)
    · constructor
      · rfl
      · rfl
      · rfl
      · exact ⟨List.nodup_nil, by simp [Drain.waiting], by simp [Drain.waiting],
          fun _ kept => absurd kept List.not_mem_nil,
          fun _ logged => absurd logged List.not_mem_nil⟩
      · rfl
      · exact fun _ held => absurd held List.not_mem_nil
      · exact fun _ logged => absurd logged List.not_mem_nil
      · exact fun logged => absurd logged List.not_mem_nil
      · exact List.Pairwise.nil

/-! ### Two chunks, the second refused -/

def allUnchanged : Portal where
  writeDetails _ items := { unchanged := items.length }

def row (nativeId : String) : Claimed where
  nativeId := nativeId
  detailRef := none
  indexPriceCzk := none
  enqueuedAt := 0

def blankPage : Payload :=
  .listing { priceCzk := none, usableArea := none, estateArea := none, description := none
             params := [], imageUrls := [] }

def firstChunk : Chunk where
  claimed := [row "1", row "2", row "3"]
  priorities _ := none
  fetched :=
    [{ item := { nativeId := "3", kind := .ok, payload := blankPage } },
      { item := { nativeId := "1", kind := .ok } },
      { item := { nativeId := "2", kind := .gone } }]
  refused := false
  distinct := by decide
  complete := by decide
  latched := by decide

def secondChunk : Chunk where
  claimed := [row "3", row "4", row "5"]
  priorities _ := none
  fetched :=
    [{ item := { nativeId := "5", kind := .error } },
      { item := { nativeId := "3", kind := .error }, refused := true },
      { item := { nativeId := "4", kind := .ok } , refused := true }]
  refused := true
  distinct := by decide
  complete := by decide
  latched := by decide

/-- The third advert fails in the first chunk and is handed back untouched in the second. -/
theorem two_chunks_accounted :
    Accounted ⟨none, false⟩ [firstChunk, secondChunk]
      (runDetailDrain allUnchanged ⟨none, false⟩ [firstChunk, secondChunk]) ∧
    (runDetailDrain allUnchanged ⟨none, false⟩ [firstChunk, secondChunk]).totalClaimed = 6 ∧
    (runDetailDrain allUnchanged ⟨none, false⟩ [firstChunk, secondChunk]).counts.handled = 5 ∧
    eventsOf (runDetailDrain allUnchanged ⟨none, false⟩ [firstChunk, secondChunk]).log ⟨0, "3"⟩ =
      [.claimed ⟨0, "3"⟩, .recordedFailure ⟨0, "3"⟩ contentFreeError,
        .failed ⟨0, "3"⟩ contentFreeError] ∧
    eventsOf (runDetailDrain allUnchanged ⟨none, false⟩ [firstChunk, secondChunk]).log ⟨1, "3"⟩ =
      [.claimed ⟨1, "3"⟩, .released ⟨1, "3"⟩] :=
  ⟨drain_accounts allUnchanged ⟨none, false⟩ _ fun _ _ => by simp [allUnchanged, Tally.outcomes],
    by decide +kernel, by decide +kernel, by decide +kernel, by decide +kernel⟩

end Sreality.Scraper.DetailDrain
