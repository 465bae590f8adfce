import Mathlib.Data.List.Perm.Subperm
import Sreality.LocationData.ReadingsPass

/-! The readings pass settles: a batch leaves none of its listings to be selected again, and the
loop's end finds each listing of its start mined, with the claims of its reading and no others. -/

set_option autoImplicit false

namespace Sreality.LocationData.ReadingsPass

open Sreality.Foundation

variable {Location Fingerprint : Type}

/-! ### The stamps -/

theorem last_of_version (version : ℤ) : ∃ front digit, (toString version).toList = front ++ [digit] ∧
    digit ≠ '~' := by
  have digits : ∀ n : Nat, ∃ front digit, (toString n).toList = front ++ [digit] ∧ digit ≠ '~' := by
    intro n
    have some_ : (toString n).toList ≠ [] := by
      simp [Nat.toDigits_ne_nil]
    refine ⟨(toString n).toList.dropLast, (toString n).toList.getLast some_,
      (List.dropLast_append_getLast some_).symm, fun tilde => ?_⟩
    have last := List.getLast_mem some_
    rw [tilde] at last
    have listed : '~' ∈ Nat.toDigits 10 n := by simpa using last
    have digit : '~'.isDigit := Nat.isDigit_of_mem_toDigits (by decide) (by decide) listed
    exact absurd digit (by decide)
  cases version with
  | ofNat n => exact digits n
  | negSucc n =>
      obtain ⟨front, digit, shape, other⟩ := digits (n + 1)
      refine ⟨'-' :: front, digit, ?_, other⟩
      have minus : (toString (Int.negSucc n)).toList = '-' :: (toString (n + 1)).toList := by
        simp [Int.toString_eq_repr, Int.repr]
      rw [minus, shape, List.cons_append]

theorem rtrim_stampOf (source : String) (version : ℤ) :
    rtrim (stampOf source version) = stampOf source version ∧
      rtrim (stampOf source version ++ "~") = stampOf source version := by
  obtain ⟨front, digit, shape, other⟩ := last_of_version version
  have letters : (stampOf source version).toList = (source.toList ++ '@' :: front) ++ [digit] := by
    rw [stampOf, String.toList_append, String.toList_append, shape]
    simp
  have plain : (stampOf source version).toList.rdropWhile (fun letter => decide (letter = '~')) =
      (stampOf source version).toList := by
    rw [letters, List.rdropWhile_concat_neg _ _ _ (by simpa using other)]
  constructor
  · unfold rtrim
    rw [plain, String.ofList_toList]
  · unfold rtrim
    rw [String.toList_append, show "~".toList = ['~'] from rfl,
      List.rdropWhile_concat_pos _ _ _ (by decide), plain, String.ofList_toList]

/-! ### Readings that differ in their stamps only -/

/-- The reading but for its stamp. -/
def Reading.unstamped (reading : Reading Location) : Reading Location :=
  { reading with minedContractVersion := none }

/-- A change of the stamps. -/
def Restamps (change : Reading Location → Reading Location) : Prop :=
  ∀ reading, (change reading).unstamped = reading.unstamped

namespace Restamps

variable {change : Reading Location → Reading Location}

theorem isReading (restamps : Restamps change) (reading : Reading Location) :
    (change reading).isReading = reading.isReading :=
  (congrArg Reading.isReading (restamps reading) :)

theorem listingId (restamps : Restamps change) (reading : Reading Location) :
    (change reading).listingId = reading.listingId :=
  (congrArg Reading.listingId (restamps reading) :)

theorem id (restamps : Restamps change) (reading : Reading Location) :
    (change reading).id = reading.id :=
  (congrArg Reading.id (restamps reading) :)

theorem textHash (restamps : Restamps change) (reading : Reading Location) :
    (change reading).textHash = reading.textHash :=
  (congrArg Reading.textHash (restamps reading) :)

theorem preference (restamps : Restamps change) (version : Option String)
    (reading : Reading Location) :
    (change reading).preference version = reading.preference version :=
  (congrArg (Reading.preference version) (restamps reading) :)

theorem preferred (restamps : Restamps change) (version : Option String)
    (readings : List (Reading Location)) :
    ReadingsPass.preferred version (readings.map change) =
      (ReadingsPass.preferred version readings).map change := by
  unfold ReadingsPass.preferred
  rw [sortedBy_map (restamps.preference version), List.head?_map]

theorem current (restamps : Restamps change) (pass : Pass Location Fingerprint)
    {database next : Database Location Fingerprint} {listing : Listing}
    (moved : readingsOf next listing.id = (readingsOf database listing.id).map change) :
    ReadingsPass.current pass next listing =
      (ReadingsPass.current pass database listing).map change := by
  unfold ReadingsPass.current
  rw [moved, List.filter_map, ← restamps.preferred]
  congr 2
  apply List.filter_congr
  intro reading _
  simp [restamps.textHash]

end Restamps

theorem stampReading_restamps (mined : List Mined) (readings : List (Reading Location)) :
    Restamps (stampReading mined readings) := by
  intro reading
  unfold stampReading
  split
  · rfl
  · split <;> rfl

/-- A reading stamped for its listing. -/
def Reading.checkedBy (readings : List (Reading Location)) (one : Mined)
    (reading : Reading Location) : Reading Location :=
  { reading with minedContractVersion := checked readings one reading }

theorem checkedBy_restamps (readings : List (Reading Location)) (one : Mined) :
    Restamps (Reading.checkedBy readings one) :=
  fun _ => rfl

/-! ### What the selector selects -/

section Selected

variable {pass : Pass Location Fingerprint} {database next : Database Location Fingerprint}
  {listing : Listing} {record : Record Location}

/-- The preferred of a list, in its order before all others. -/
theorem preferred_some {version : Option String} {readings : List (Reading Location)}
    {first : Reading Location} (found : preferred version readings = some first) :
    first ∈ readings ∧ ∀ other ∈ readings,
      first.preference version ≤ other.preference version :=
  least_of_head?_sortedBy found

theorem preference_id {version : Option String} {one other : Reading Location}
    (same : one.preference version = other.preference version) : one.id = other.id := by
  have ids := congrArg (fun order => (ofLex (ofLex order).2).2) same
  simpa [Reading.preference] using ids

/-- The stamp a listing's records carry. -/
def Stamps (database : Database Location Fingerprint) (listing : Listing) (stamp : String) : Prop :=
  ∃ contract ∈ database.contracts, contract.isActive = true ∧ contract.source = listing.source ∧
    stamp = stampOf listing.source contract.version

theorem Stamps.rtrim (stamped : Stamps database listing record.stamp) :
    rtrim record.stamp = record.stamp ∧ rtrim (record.stamp ++ "~") = record.stamp := by
  obtain ⟨contract, _, _, _, stamp⟩ := stamped
  rw [stamp]
  exact rtrim_stampOf _ _

theorem unsettled_some {scope : List Portal} {id : Nat} {found : Option String}
    (listed : unsettled pass scope database id = some found) :
    ∃ first, preferred pass.version (readingsOf database id) = some first ∧
      found = first.minedContractVersion := by
  unfold unsettled at listed
  cases first : preferred pass.version (readingsOf database id) with
  | none =>
      rw [first] at listed
      cases listed
  | some reading =>
      rw [first] at listed
      dsimp only at listed
      split at listed
      · cases listed
        exact ⟨reading, rfl, rfl⟩
      · cases listed

/-- The selected record of a listing. -/
structure Unmined (pass : Pass Location Fingerprint) (database : Database Location Fingerprint)
    (record : Record Location) : Prop where
  held : record.listing ∈ database.listings
  covered : record.listing.source ∈ (scopeOf pass database.contracts).map (·.source)
  stamped : Stamps database record.listing record.stamp
  reading : record.reading = (current pass database record.listing).map fun row =>
    (row.id, row.location)
  selects : ∃ first, preferred pass.version (readingsOf database record.listing.id) = some first ∧
    Selects record.listing record.stamp first.minedContractVersion
      (current pass database record.listing)

theorem unmined_of_mem (selected : record ∈ unminedReadings pass database) :
    Unmined pass database record := by
  obtain ⟨listing, covered, listed⟩ := List.mem_flatMap.mp selected
  obtain ⟨held, source⟩ := List.mem_filter.mp covered
  obtain ⟨contract, active, made⟩ := List.mem_filterMap.mp listed
  obtain ⟨stored, both⟩ := List.mem_filter.mp active
  obtain ⟨live, own⟩ := Bool.and_eq_true_iff.mp both
  obtain ⟨found, listed, kept⟩ := Option.bind_eq_some_iff.mp made
  obtain ⟨first, leads, rfl⟩ := unsettled_some listed
  dsimp only at kept
  split at kept
  · rename_i selects
    cases kept
    exact ⟨held, List.contains_iff_mem.mp source,
      ⟨contract, stored, live, of_decide_eq_true own, rfl⟩, rfl, first, leads, selects⟩
  · cases kept

theorem listing_of_recordOf {scope : List Portal} {contract : Contract}
    (made : recordOf pass scope database listing contract = some record) :
    record.listing = listing := by
  obtain ⟨_, _, kept⟩ := Option.bind_eq_some_iff.mp made
  dsimp only at kept
  split at kept
  · cases kept
    rfl
  · cases kept

theorem length_active_le_one
    (active : ((database.contracts.filter (·.isActive)).map (·.source)).Nodup) (source : String) :
    (database.contracts.filter fun contract =>
      contract.isActive && decide (contract.source = source)).length ≤ 1 := by
  have own : database.contracts.filter (fun contract =>
      contract.isActive && decide (contract.source = source)) =
        (database.contracts.filter (·.isActive)).filter fun contract =>
          decide (contract.source = source) := by
    rw [List.filter_filter]
    apply List.filter_congr
    intro contract _
    exact Bool.and_comm _ _
  rw [own]
  have apart := (List.pairwise_map.mp active).filter fun contract : Contract =>
    decide (contract.source = source)
  cases shape : (database.contracts.filter (·.isActive)).filter fun contract =>
      decide (contract.source = source) with
  | nil => simp
  | cons one rest =>
      cases rest with
      | nil => simp
      | cons other rest =>
          rw [shape] at apart
          have first : one ∈ (database.contracts.filter (·.isActive)).filter fun contract =>
              decide (contract.source = source) := by simp [shape]
          have second : other ∈ (database.contracts.filter (·.isActive)).filter fun contract =>
              decide (contract.source = source) := by simp [shape]
          refine absurd ?_ ((List.pairwise_cons.mp apart).1 other (by simp))
          rw [of_decide_eq_true (List.mem_filter.mp first).2,
            of_decide_eq_true (List.mem_filter.mp second).2]

/-- A listing is selected once. -/
theorem nodup_unmined (keyed : Keyed Listing.id database.listings)
    (active : ((database.contracts.filter (·.isActive)).map (·.source)).Nodup) :
    ((unminedReadings pass database).map (·.listing.id)).Nodup := by
  unfold unminedReadings
  dsimp only
  rw [List.map_flatMap, List.nodup_flatMap]
  constructor
  · intro listing _
    have short := length_active_le_one active listing.source
    have fewer := (List.length_filterMap_le
      (recordOf pass (scopeOf pass database.contracts) database listing)
      (database.contracts.filter fun contract =>
        contract.isActive && decide (contract.source = listing.source))).trans short
    cases shape : (database.contracts.filter fun contract =>
        contract.isActive && decide (contract.source = listing.source)).filterMap
          (recordOf pass (scopeOf pass database.contracts) database listing) with
    | nil => exact List.nodup_nil
    | cons one rest =>
        rw [shape] at fewer
        cases rest with
        | nil => simp
        | cons other rest => simp at fewer
  · refine (List.pairwise_map.mp (keyed.filter _)).imp fun {one other} apart => ?_
    intro id oneIn otherIn
    obtain ⟨first, firstIn, rfl⟩ := List.mem_map.mp oneIn
    obtain ⟨second, secondIn, same⟩ := List.mem_map.mp otherIn
    obtain ⟨_, _, firstMade⟩ := List.mem_filterMap.mp firstIn
    obtain ⟨_, _, secondMade⟩ := List.mem_filterMap.mp secondIn
    rw [listing_of_recordOf firstMade, listing_of_recordOf secondMade] at same
    exact apart same.symm

end Selected

/-! ### The database -/

/-- The keys of the tables, a text hash on each reading, and stored claims of fingerprints that are
their own: `identity` tells the listing, the portal, the claim type and the contract entry. -/
structure Sound (pass : Pass Location Fingerprint)
    (identity : Fingerprint → Nat × String × String × Option Nat)
    (database : Database Location Fingerprint) : Prop where
  listings : Keyed Listing.id database.listings
  readings : Keyed Reading.id database.readings
  active : ((database.contracts.filter (·.isActive)).map (·.source)).Nodup
  hashed : ∀ reading ∈ database.readings, reading.isReading → reading.textHash.isSome
  mined : ∀ claim, identity (pass.fingerprint claim) =
    (claim.listingId, claim.source, claim.claimType, some claim.contractEntryId)
  claims : ∀ row ∈ database.claims, identity row.claimFingerprint =
    (row.listingId, row.source, row.claimType, row.contractEntryId)

/-- A portal has one active contract, so one stamp. -/
theorem Sound.stamps_eq {pass : Pass Location Fingerprint}
    {identity : Fingerprint → Nat × String × String × Option Nat}
    {database : Database Location Fingerprint} (sound : Sound pass identity database)
    {listing : Listing} {one other : String} (first : Stamps database listing one)
    (second : Stamps database listing other) : one = other := by
  obtain ⟨contract, held, live, own, rfl⟩ := first
  obtain ⟨rival, rivalHeld, rivalLive, rivalOwn, rfl⟩ := second
  have same : contract = rival :=
    List.inj_on_of_nodup_map sound.active (List.mem_filter.mpr ⟨held, live⟩)
      (List.mem_filter.mpr ⟨rivalHeld, rivalLive⟩) (own.trans rivalOwn.symm)
  rw [same]

/-- A claim stored for a listing under one of its portal's reading claim types, the operator's
left out. -/
def Holds (pass : Pass Location Fingerprint) (database : Database Location Fingerprint)
    (listing : Listing) (fingerprint : Fingerprint) : Prop :=
  ∃ row ∈ database.claims, row.listingId = listing.id ∧ row.source = listing.source ∧
    row.contractEntryId.isSome ∧
    row.claimType ∈ claimTypesOf (scopeOf pass database.contracts) listing.source ∧
    row.claimFingerprint = fingerprint

/-! ### What a batch mines -/

section Mining

variable {pass : Pass Location Fingerprint} {scope : List Portal} {record : Record Location}
  {records : List (Record Location)} {claims : List Claim}

/-- A mined claim is of the listing, its portal and one of the portal's reading claim types. -/
theorem mine_claim (mined : mine pass scope record = some claims) {claim : Claim}
    (made : claim ∈ claims) : claim.listingId = record.listing.id ∧
      claim.source = record.listing.source ∧
        claim.claimType ∈ claimTypesOf scope record.listing.source := by
  unfold mine at mined
  split at mined
  · unfold extractListing at mined
    split at mined
    · cases mined
    · rename_i portal own
      dsimp only at mined
      split at mined
      · cases mined
        obtain ⟨entry, listed, said⟩ := List.mem_filterMap.mp (List.mem_of_mem_filter made)
        obtain ⟨value, _, rfl⟩ := Option.map_eq_some_iff.mp said
        refine ⟨rfl, rfl, ?_⟩
        unfold claimTypesOf entriesOf
        rw [own]
        exact List.mem_map_of_mem (List.mem_of_mem_filter listed)
      · cases mined
  · cases mined
    cases made

theorem mineAll_some : ∀ {records : List (Record Location)} {claims : List Claim},
    mineAll pass scope records = some claims →
      (∀ record ∈ records, ∃ own, mine pass scope record = some own ∧ ∀ claim ∈ own,
        claim ∈ claims) ∧
      ∀ claim ∈ claims, ∃ record ∈ records, ∃ own, mine pass scope record = some own ∧
        claim ∈ own := by
  intro records
  induction records with
  | nil =>
      intro claims mined
      cases mined
      exact ⟨by simp, by simp⟩
  | cons first rest ih =>
      intro claims mined
      obtain ⟨own, ownMined, mined⟩ := Option.bind_eq_some_iff.mp mined
      obtain ⟨others, othersMined, mined⟩ := Option.bind_eq_some_iff.mp mined
      cases mined
      obtain ⟨within, from_⟩ := ih othersMined
      constructor
      · intro record listed
        rcases List.mem_cons.mp listed with rfl | later
        · exact ⟨own, ownMined, fun claim made => List.mem_append_left _ made⟩
        · obtain ⟨its, itsMined, inside⟩ := within record later
          exact ⟨its, itsMined, fun claim made => List.mem_append_right _ (inside claim made)⟩
      · intro claim made
        rcases List.mem_append.mp made with here | there
        · exact ⟨first, List.mem_cons_self, own, ownMined, here⟩
        · obtain ⟨record, listed, its, itsMined, held⟩ := from_ claim there
          exact ⟨record, List.mem_cons_of_mem _ listed, its, itsMined, held⟩

end Mining

/-! ### What the write does -/

section Write

variable [DecidableEq Fingerprint] {fingerprint : Claim → Fingerprint} {claims : List Claim}
  {mined : List Mined} {now : ℚ} {database : Database Location Fingerprint}

theorem mem_deduped {row : ClaimRow Fingerprint} (listed : row ∈ deduped fingerprint claims) :
    ∃ claim ∈ claims, row = rowOf fingerprint claim := by
  induction claims with
  | nil => cases listed
  | cons first rest ih =>
      unfold deduped at listed
      split at listed
      · obtain ⟨claim, made, same⟩ := ih listed
        exact ⟨claim, List.mem_cons_of_mem _ made, same⟩
      · rcases List.mem_cons.mp listed with rfl | later
        · exact ⟨first, List.mem_cons_self, rfl⟩
        · obtain ⟨claim, made, same⟩ := ih later
          exact ⟨claim, List.mem_cons_of_mem _ made, same⟩

/-- Each fingerprint is kept. -/
theorem deduped_covers {claim : Claim} (made : claim ∈ claims) :
    ∃ row ∈ deduped fingerprint claims, row.claimFingerprint = fingerprint claim := by
  induction claims with
  | nil => cases made
  | cons first rest ih =>
      unfold deduped
      rcases List.mem_cons.mp made with rfl | later
      · split
        · rename_i again
          obtain ⟨row, listed, same⟩ := List.any_eq_true.mp again
          exact ⟨row, listed, of_decide_eq_true same⟩
        · exact ⟨rowOf fingerprint claim, List.mem_cons_self, rfl⟩
      · obtain ⟨row, listed, same⟩ := ih later
        split
        · exact ⟨row, listed, same⟩
        · exact ⟨row, List.mem_cons_of_mem _ listed, same⟩

theorem mem_written {row : ClaimRow Fingerprint} :
    row ∈ (writeReadings fingerprint claims mined now database).claims ↔
      row ∈ database.claims ∧ superseded fingerprint claims mined row = false ∨
        row ∈ inserted fingerprint claims database.claims := by
  unfold writeReadings
  dsimp only
  rw [List.mem_append, List.mem_filter, Bool.not_eq_true']

theorem superseded_eq_true {row : ClaimRow Fingerprint} :
    superseded fingerprint claims mined row = true ↔
      (∃ one ∈ mined, row.listingId = one.listingId ∧ row.source = one.source ∧
        one.readingId.isSome ∧ row.contractEntryId.isSome ∧ row.claimType ∈ one.claimTypes) ∧
      ∀ claim ∈ claims, fingerprint claim ≠ row.claimFingerprint := by
  simp only [superseded, Bool.and_eq_true, List.any_eq_true, decide_eq_true_eq,
    List.contains_iff_mem, Bool.not_eq_true', List.any_eq_false, and_assoc]

/-- A changed listing is in the queue afterwards, and no listing leaves it. -/
theorem mem_enqueue {changed : List Nat} {queue : List DirtyLocation} {listing : Nat}
    (listed : listing ∈ changed ∨ ∃ row ∈ queue, row.listingId = listing) :
    ∃ row ∈ enqueue now changed queue, row.listingId = listing := by
  by_cases queued : ∃ row ∈ queue, row.listingId = listing
  · obtain ⟨row, held, rfl⟩ := queued
    refine ⟨_, List.mem_append_left _ (mem_updateRows.mpr ⟨row, held, rfl⟩), ?_⟩
    split <;> rfl
  · have fresh := listed.resolve_right queued
    refine ⟨_, List.mem_append_right _ (List.mem_map.mpr ⟨listing, ?_, rfl⟩), rfl⟩
    refine List.mem_filter.mpr ⟨List.mem_dedup.mpr fresh, ?_⟩
    rw [Bool.not_eq_true', List.any_eq_false]
    intro row held same
    exact queued ⟨row, held, of_decide_eq_true same⟩

omit [DecidableEq Fingerprint] in
theorem mem_readingsOf {listing : Nat} {reading : Reading Location} :
    reading ∈ readingsOf database listing ↔
      reading ∈ database.readings ∧ reading.isReading = true ∧ reading.listingId = listing := by
  unfold readingsOf
  rw [List.mem_filter, Bool.and_eq_true, decide_eq_true_eq]

theorem stampReading_out {readings : List (Reading Location)} {reading : Reading Location}
    (out : ∀ one ∈ mined, one.listingId ≠ reading.listingId) :
    stampReading mined readings reading = reading := by
  have none_ : mined.find? (fun one => decide (one.listingId = reading.listingId)) = none :=
    List.find?_eq_none.mpr fun one listed => by simpa using out one listed
  unfold stampReading
  rw [none_]

theorem stampReading_of_mem {readings : List (Reading Location)} {reading : Reading Location}
    (keyed : Keyed Mined.listingId mined) {one : Mined} (listed : one ∈ mined)
    (own : reading.listingId = one.listingId) (read : reading.isReading = true) :
    stampReading mined readings reading = reading.checkedBy readings one := by
  have found := keyed.find? listed
  rw [← own] at found
  unfold stampReading
  rw [found]
  exact if_pos read

theorem readingsOf_written (listing : Nat) :
    readingsOf (writeReadings fingerprint claims mined now database) listing =
      (readingsOf database listing).map (stampReading mined database.readings) := by
  have restamps := stampReading_restamps mined database.readings
  unfold readingsOf writeReadings
  dsimp only
  rw [List.filter_map]
  congr 1
  apply List.filter_congr
  intro reading _
  simp [restamps.isReading, restamps.listingId]

end Write

/-! ### A batch, listing by listing -/

section Batch

variable [DecidableEq Fingerprint] {pass : Pass Location Fingerprint}
  {identity : Fingerprint → Nat × String × String × Option Nat} {cap : Nat}
  {database next : Database Location Fingerprint} {records : List (Record Location)}
  {record : Record Location} {listing : Listing}

/-- What a batch leaves as it was. -/
structure Carried (database next : Database Location Fingerprint) : Prop where
  listings : next.listings = database.listings
  contracts : next.contracts = database.contracts
  queue : ∀ row ∈ database.dirtyLocations,
    ∃ kept ∈ next.dirtyLocations, kept.listingId = row.listingId

/-- A listing whose readings and claims are as they were. -/
structure Untouched (database next : Database Location Fingerprint) (listing : Listing) :
    Prop where
  readings : readingsOf next listing.id = readingsOf database listing.id
  claims : ∀ row : ClaimRow Fingerprint, row.listingId = listing.id →
    (row ∈ next.claims ↔ row ∈ database.claims)

theorem ReadingBatch.carried (batch : ReadingBatch pass cap database records next) :
    Carried database next := by
  cases batch with
  | commit now records claims _ _ _ =>
      split
      · exact ⟨rfl, rfl, fun row held => ⟨row, held, rfl⟩⟩
      · exact ⟨rfl, rfl, fun row held => mem_enqueue (.inr ⟨row, held, rfl⟩)⟩

theorem ReadingBatch.distinct (sound : Sound pass identity database)
    (batch : ReadingBatch pass cap database records next) :
    (records.map (·.listing.id)).Nodup ∧ ∀ record ∈ records, Unmined pass database record := by
  cases batch with
  | commit now records claims selected _ _ =>
      refine ⟨?_, fun record listed => unmined_of_mem (selected.subset listed)⟩
      obtain ⟨middle, same, within⟩ := selected
      exact (same.map (·.listing.id)).nodup_iff.mp
        ((nodup_unmined sound.listings sound.active).sublist (within.map (·.listing.id)))

theorem inserted_listing {claims : List Claim} {scope : List Portal}
    (mined : mineAll pass scope records = some claims) {row : ClaimRow Fingerprint}
    {stored : List (ClaimRow Fingerprint)}
    (fresh : row ∈ inserted pass.fingerprint claims stored) :
    ∃ record ∈ records, ∃ own, mine pass scope record = some own ∧
      ∃ claim ∈ own, row = rowOf pass.fingerprint claim ∧
        row.listingId = record.listing.id := by
  obtain ⟨claim, made, rfl⟩ := mem_deduped (List.mem_of_mem_filter fresh)
  obtain ⟨record, listed, own, its, held⟩ := (mineAll_some mined).2 claim made
  exact ⟨record, listed, own, its, claim, held, rfl, (mine_claim its held).1⟩

theorem ReadingBatch.untouched (batch : ReadingBatch pass cap database records next)
    (out : ∀ record ∈ records, record.listing.id ≠ listing.id) :
    Untouched database next listing := by
  cases batch with
  | commit now records claims _ _ mined =>
      split
      · exact ⟨rfl, fun row _ => Iff.rfl⟩
      · constructor
        · rw [readingsOf_written]
          refine (List.map_congr_left fun reading held => ?_).trans (List.map_id _)
          have own := (mem_readingsOf.mp held).2.2
          refine stampReading_out fun one listed same => ?_
          obtain ⟨record, member, rfl⟩ := List.mem_map.mp listed
          exact out record member (same.trans own)
        · intro row own
          rw [mem_written]
          constructor
          · rintro (⟨held, _⟩ | fresh)
            · exact held
            · obtain ⟨record, listed, _, _, _, _, _, same⟩ := inserted_listing mined fresh
              exact absurd (same.symm.trans own) (out record listed)
          · intro held
            refine .inl ⟨held, ?_⟩
            rw [Bool.eq_false_iff]
            intro gone
            obtain ⟨⟨one, listed, same, _⟩, _⟩ := superseded_eq_true.mp gone
            obtain ⟨record, member, rfl⟩ := List.mem_map.mp listed
            exact out record member (same.symm.trans own)

omit [DecidableEq Fingerprint] in
theorem Carried.trans {last : Database Location Fingerprint} (first : Carried database next)
    (second : Carried next last) : Carried database last := by
  refine ⟨second.listings.trans first.listings, second.contracts.trans first.contracts,
    fun row held => ?_⟩
  obtain ⟨kept, there, same⟩ := first.queue row held
  obtain ⟨still, after, own⟩ := second.queue kept there
  exact ⟨still, after, own.trans same⟩

omit [DecidableEq Fingerprint] in
theorem Untouched.trans {last : Database Location Fingerprint}
    (first : Untouched database next listing) (second : Untouched next last listing) :
    Untouched database last listing :=
  ⟨second.readings.trans first.readings, fun row own =>
    (second.claims row own).trans (first.claims row own)⟩

/-- A batch's write, and what is known of its records. -/
theorem ReadingBatch.writes (batch : ReadingBatch pass cap database records next) (listed : record ∈ records) :
    ∃ now claims, mineAll pass (scopeOf pass database.contracts) records = some claims ∧
      next = writeReadings pass.fingerprint claims
        (records.map (minedOf (scopeOf pass database.contracts))) now database := by
  cases batch with
  | commit now records claims _ _ mined =>
      exact ⟨now, claims, mined, if_neg (List.ne_nil_of_mem listed)⟩

/-- The readings of a listing of the batch. -/
theorem ReadingBatch.restamped (sound : Sound pass identity database)
    (batch : ReadingBatch pass cap database records next) (listed : record ∈ records) :
    readingsOf next record.listing.id = (readingsOf database record.listing.id).map
      (Reading.checkedBy database.readings
        (minedOf (scopeOf pass database.contracts) record)) := by
  obtain ⟨distinct, _⟩ := batch.distinct sound
  obtain ⟨now, claims, _, rfl⟩ := batch.writes listed
  rw [readingsOf_written]
  refine List.map_congr_left fun reading held => ?_
  obtain ⟨_, read, own⟩ := mem_readingsOf.mp held
  have keyed : Keyed Mined.listingId
      (records.map (minedOf (scopeOf pass database.contracts))) := by
    unfold Keyed
    rw [List.map_map]
    exact distinct
  exact stampReading_of_mem keyed (List.mem_map_of_mem listed) own read

omit [DecidableEq Fingerprint] in
/-- The stamp of a listing's preferred reading after its batch, the trailing mark aside. -/
theorem checked_preferred (sound : Sound pass identity database)
    (unmined : Unmined pass database record) {scope : List Portal} {first : Reading Location}
    (leads : preferred pass.version (readingsOf database record.listing.id) = some first) :
    (current pass database record.listing = none →
      checked database.readings (minedOf scope record) first = some (record.stamp ++ "~")) ∧
    ∀ reading, current pass database record.listing = some reading →
      checked database.readings (minedOf scope record) reading = some record.stamp ∧
        (checked database.readings (minedOf scope record) first).map rtrim =
          some record.stamp := by
  obtain ⟨firstIn, before⟩ := preferred_some leads
  obtain ⟨firstHeld, firstRead, _⟩ := mem_readingsOf.mp firstIn
  constructor
  · intro unread
    have nothing : (minedOf scope record).readingId = none := by
      simp [minedOf, unmined.reading, unread]
    have hashed := sound.hashed first firstHeld firstRead
    unfold checked
    rw [nothing]
    cases hash : first.textHash with
    | none => simp [hash] at hashed
    | some text => simp [minedOf]
  · intro reading found
    obtain ⟨own, after⟩ := preferred_some found
    obtain ⟨inside, hash⟩ := List.mem_filter.mp own
    have held := (mem_readingsOf.mp inside).1
    have id : (minedOf scope record).readingId = some reading.id := by
      simp [minedOf, unmined.reading, found]
    have cur : (database.readings.find? fun other => decide (other.id = reading.id)) =
        some reading := sound.readings.find? held
    have mark : (minedOf scope record).stamp = record.stamp := rfl
    constructor
    · unfold checked
      rw [id, if_pos rfl, mark]
    · unfold checked
      rw [id, mark]
      dsimp only
      split
      · rw [Option.map_some, unmined.stamped.rtrim.1]
      · rename_i other
        split
        · rw [Option.map_some, unmined.stamped.rtrim.2]
        · -- The first reading has the text of the current one, which is preferred to it.
          rename_i same
          rw [Option.bind_some, cur, Option.bind_some, not_not] at same
          have listed : first ∈ (readingsOf database record.listing.id).filter fun one =>
              decide (one.textHash = some (pass.sha256 record.listing.text)) := by
            refine List.mem_filter.mpr ⟨firstIn, ?_⟩
            rw [same]
            exact hash
          have tied := le_antisymm (before reading inside) (after first listed)
          exact absurd (congrArg some (preference_id tied).symm) other

/-- No listing of a batch is selected after it. -/
theorem ReadingBatch.settles (sound : Sound pass identity database)
    (batch : ReadingBatch pass cap database records next) (listed : record ∈ records) :
    ∀ again ∈ unminedReadings pass next, again.listing.id ≠ record.listing.id := by
  intro again selected same
  have unmined := (batch.distinct sound).2 record listed
  have more := unmined_of_mem selected
  have carried := batch.carried
  have listing : again.listing = record.listing :=
    sound.listings.eq (carried.listings ▸ more.held) unmined.held same
  have stamp : again.stamp = record.stamp := by
    refine sound.stamps_eq ?_ unmined.stamped
    obtain ⟨contract, held, live, own, stamp⟩ := more.stamped
    rw [carried.contracts] at held
    rw [listing] at own stamp
    exact ⟨contract, held, live, own, stamp⟩
  obtain ⟨first', leads', selects⟩ := more.selects
  rw [listing, stamp] at selects
  rw [listing] at leads'
  have moved := batch.restamped sound listed
  have restamps := checkedBy_restamps database.readings
    (minedOf (scopeOf pass database.contracts) record)
  rw [moved, restamps.preferred] at leads'
  rw [restamps.current pass moved] at selects
  obtain ⟨first, leads, rfl⟩ := Option.map_eq_some_iff.mp leads'
  have stamped := @checked_preferred _ _ pass identity database record sound unmined
    (scopeOf pass database.contracts) first leads
  obtain ⟨_, unsettled⟩ := selects
  cases found : current pass database record.listing with
  | none =>
      rw [found] at unsettled
      exact unsettled (stamped.1 found)
  | some reading =>
      rw [found] at unsettled
      exact unsettled (stamped.2 reading found)

/-- The keys, the hashes and the fingerprints stay sound. -/
theorem Sound.batch (sound : Sound pass identity database)
    (batch : ReadingBatch pass cap database records next) : Sound pass identity next := by
  cases batch with
  | commit now records claims _ _ mined =>
      split
      · exact sound
      · refine ⟨sound.listings, ?_, sound.active, ?_, sound.mined, ?_⟩
        · have keys : (writeReadings pass.fingerprint claims
              (records.map (minedOf (scopeOf pass database.contracts))) now
              database).readings.map Reading.id = database.readings.map Reading.id := by
            unfold writeReadings
            rw [List.map_map]
            exact List.map_congr_left fun reading _ =>
              (stampReading_restamps _ _).id reading
          unfold Keyed
          rw [keys]
          exact sound.readings
        · intro reading held read
          obtain ⟨old, listed, rfl⟩ := List.mem_map.mp held
          have restamps := stampReading_restamps
            (records.map (minedOf (scopeOf pass database.contracts))) database.readings
          rw [restamps.isReading] at read
          rw [restamps.textHash]
          exact sound.hashed old listed read
        · intro row held
          rcases mem_written.mp held with ⟨stored, _⟩ | fresh
          · exact sound.claims row stored
          · obtain ⟨claim, _, rfl⟩ := mem_deduped (List.mem_of_mem_filter fresh)
            exact sound.mined claim

/-- What a record of the batch has mined, and its listing's claims of the reading types. -/
theorem ReadingBatch.claims (sound : Sound pass identity database)
    (batch : ReadingBatch pass cap database records next) (listed : record ∈ records) :
    ∃ own, mine pass (scopeOf pass database.contracts) record = some own ∧
      (record.reading.isSome → ∀ fingerprint,
        Holds pass next record.listing fingerprint ↔
          ∃ claim ∈ own, pass.fingerprint claim = fingerprint) ∧
      ∀ fingerprint, ¬(Holds pass database record.listing fingerprint ↔
        Holds pass next record.listing fingerprint) →
          ∃ row ∈ next.dirtyLocations, row.listingId = record.listing.id := by
  obtain ⟨distinct, unmined⟩ := batch.distinct sound
  have carried := batch.carried
  obtain ⟨now, claims, mined, shape⟩ := batch.writes listed
  obtain ⟨own, its, within⟩ := (mineAll_some mined).1 record listed
  -- A claim of the batch on this listing is mined from this record.
  have single : ∀ claim ∈ claims, claim.listingId = record.listing.id → claim ∈ own := by
    intro claim made same
    obtain ⟨other, otherIn, others, otherMined, held⟩ := (mineAll_some mined).2 claim made
    have one : other = record :=
      List.inj_on_of_nodup_map distinct otherIn listed
        ((mine_claim otherMined held).1.symm.trans same)
    rw [one, its] at otherMined
    cases otherMined
    exact held
  refine ⟨own, its, fun read fingerprint => ?_, fun fingerprint changed => ?_⟩
  · unfold Holds
    rw [carried.contracts, shape]
    constructor
    · rintro ⟨row, held, listing, source, entry, type, rfl⟩
      rcases mem_written.mp held with ⟨stored, stays⟩ | fresh
      · by_contra none_
        rw [Bool.eq_false_iff] at stays
        refine stays (superseded_eq_true.mpr ⟨⟨_, List.mem_map_of_mem listed, listing, source, ?_,
          entry, type⟩, fun claim made same => none_ ⟨claim, single claim made ?_, same⟩⟩)
        · simpa [minedOf] using read
        · have identified := sound.mined claim
          rw [same, sound.claims row stored] at identified
          exact (congrArg Prod.fst identified).symm.trans listing
      · obtain ⟨claim, made, rfl⟩ := mem_deduped (List.mem_of_mem_filter fresh)
        exact ⟨claim, single claim made listing, rfl⟩
    · rintro ⟨claim, made, rfl⟩
      obtain ⟨listing, source, type⟩ := mine_claim its made
      by_cases stored : ∃ row ∈ database.claims,
          row.claimFingerprint = pass.fingerprint claim
      · obtain ⟨row, held, same⟩ := stored
        have identified := sound.claims row held
        rw [same, sound.mined claim] at identified
        simp only [Prod.mk.injEq] at identified
        obtain ⟨rowListing, rowSource, rowType, rowEntry⟩ := identified
        refine ⟨row, mem_written.mpr (.inl ⟨held, ?_⟩), rowListing.symm.trans listing,
          rowSource.symm.trans source, rowEntry ▸ rfl, rowType ▸ type, same⟩
        rw [Bool.eq_false_iff]
        intro gone
        exact (superseded_eq_true.mp gone).2 claim (within claim made) same.symm
      · obtain ⟨row, kept, same⟩ := @deduped_covers _ _ pass.fingerprint claims claim
          (within claim made)
        obtain ⟨twin, twinIn, rfl⟩ := mem_deduped kept
        have identified := sound.mined twin
        rw [show pass.fingerprint twin = pass.fingerprint claim from same,
          sound.mined claim] at identified
        simp only [Prod.mk.injEq] at identified
        obtain ⟨twinListing, twinSource, twinType, _⟩ := identified
        refine ⟨_, mem_written.mpr (.inr (List.mem_filter.mpr ⟨kept, ?_⟩)),
          twinListing.symm.trans listing, twinSource.symm.trans source, rfl,
          (twinType ▸ type : twin.claimType ∈ _), same⟩
        rw [Bool.not_eq_true', List.any_eq_false]
        intro row held clash
        exact stored ⟨row, held, (of_decide_eq_true clash).trans same⟩
  · -- A claim that came or went names the listing among the changed ones.
    rw [shape]
    refine mem_enqueue (.inl ?_)
    unfold Holds at changed
    rw [carried.contracts, shape] at changed
    by_contra out
    refine changed ⟨?_, ?_⟩
    · rintro ⟨row, held, listing, rest⟩
      refine ⟨row, mem_written.mpr (.inl ⟨held, ?_⟩), listing, rest⟩
      rw [Bool.eq_false_iff]
      intro gone
      refine out (List.mem_map.mpr ⟨row, List.mem_append_right _ ?_, listing⟩)
      exact List.mem_filter.mpr ⟨held, gone⟩
    · rintro ⟨row, held, listing, rest⟩
      rcases mem_written.mp held with ⟨stored, _⟩ | fresh
      · exact ⟨row, stored, listing, rest⟩
      · exact absurd (List.mem_map.mpr ⟨row, List.mem_append_left _ fresh, listing⟩) out

omit [DecidableEq Fingerprint] in
theorem recordOf_congr {scope : List Portal} {contract : Contract}
    (same : readingsOf next listing.id = readingsOf database listing.id) :
    recordOf pass scope next listing contract = recordOf pass scope database listing contract := by
  unfold recordOf unsettled current
  rw [same]

omit [DecidableEq Fingerprint] in
theorem Untouched.mem_unmined (carried : Carried database next)
    (untouched : Untouched database next record.listing) :
    record ∈ unminedReadings pass next ↔ record ∈ unminedReadings pass database := by
  unfold unminedReadings
  dsimp only
  rw [carried.listings, carried.contracts]
  simp only [List.mem_flatMap, List.mem_filterMap]
  constructor
  · rintro ⟨listing, covered, contract, active, made⟩
    refine ⟨listing, covered, contract, active, ?_⟩
    have own := listing_of_recordOf made
    rw [← recordOf_congr (own ▸ untouched.readings)]
    exact made
  · rintro ⟨listing, covered, contract, active, made⟩
    refine ⟨listing, covered, contract, active, ?_⟩
    have own := listing_of_recordOf made
    rw [recordOf_congr (own ▸ untouched.readings)]
    exact made

omit [DecidableEq Fingerprint] in
theorem Untouched.current (untouched : Untouched database next listing) :
    ReadingsPass.current pass next listing = ReadingsPass.current pass database listing := by
  unfold ReadingsPass.current
  rw [untouched.readings]

omit [DecidableEq Fingerprint] in
theorem Untouched.holds (carried : Carried database next)
    (untouched : Untouched database next listing) (fingerprint : Fingerprint) :
    Holds pass next listing fingerprint ↔ Holds pass database listing fingerprint := by
  unfold Holds
  rw [carried.contracts]
  constructor
  · rintro ⟨row, held, own, rest⟩
    exact ⟨row, (untouched.claims row own).mp held, own, rest⟩
  · rintro ⟨row, held, own, rest⟩
    exact ⟨row, (untouched.claims row own).mpr held, own, rest⟩

/-- The batch takes its records from the selected ones, whose number falls by theirs. -/
theorem ReadingBatch.selected (batch : ReadingBatch pass cap database records next) :
    (∀ record ∈ records, record ∈ unminedReadings pass database) ∧
      (records.length < cap → ∀ record ∈ unminedReadings pass database, record ∈ records) := by
  cases batch with
  | commit now records claims selected limit _ =>
      refine ⟨fun record listed => selected.subset listed, fun short record listed => ?_⟩
      have whole := selected.perm_of_length_le (by omega)
      exact whole.symm.subset listed

theorem ReadingBatch.falls (sound : Sound pass identity database)
    (batch : ReadingBatch pass cap database records next) :
    (unminedReadings pass next).length + records.length ≤
      (unminedReadings pass database).length := by
  have after := sound.batch batch
  have apart : ((unminedReadings pass next).map (·.listing.id) ++
      records.map (·.listing.id)).Nodup := by
    refine List.nodup_append.mpr ⟨nodup_unmined after.listings after.active,
      (batch.distinct sound).1, fun id oneIn other otherIn same => ?_⟩
    obtain ⟨again, selected, rfl⟩ := List.mem_map.mp oneIn
    obtain ⟨record, listed, rfl⟩ := List.mem_map.mp otherIn
    exact batch.settles sound listed again selected same
  have within : (unminedReadings pass next).map (·.listing.id) ++ records.map (·.listing.id) ⊆
      (unminedReadings pass database).map (·.listing.id) := by
    intro id listed
    rcases List.mem_append.mp listed with later | taken
    · obtain ⟨again, selected, rfl⟩ := List.mem_map.mp later
      have untouched := batch.untouched fun record listed same =>
        batch.settles sound listed again selected same.symm
      exact List.mem_map_of_mem ((untouched.mem_unmined batch.carried).mp selected)
    · obtain ⟨record, member, rfl⟩ := List.mem_map.mp taken
      exact List.mem_map_of_mem (batch.selected.1 record member)
  have counted := (apart.subperm within).length_le
  rw [List.length_append, List.length_map, List.length_map, List.length_map] at counted
  exact counted

/-! ### A settled listing -/

/-- A listing selected in `database`, as it stands in `last`. -/
structure Settled (pass : Pass Location Fingerprint) (database last : Database Location Fingerprint)
    (record : Record Location) (reading : Reading Location) : Prop where
  stamped : current pass last record.listing =
    some { reading with minedContractVersion := some record.stamp }
  claims : ∃ location own, reading.location = some location ∧
    extractListing pass (scopeOf pass database.contracts) record.listing location = some own ∧
    ∀ fingerprint, Holds pass last record.listing fingerprint ↔
      ∃ claim ∈ own, pass.fingerprint claim = fingerprint
  enqueued : ∀ fingerprint, ¬(Holds pass database record.listing fingerprint ↔
    Holds pass last record.listing fingerprint) →
      ∃ row ∈ last.dirtyLocations, row.listingId = record.listing.id

variable {last : Database Location Fingerprint} {reading : Reading Location}

namespace Settled

omit [DecidableEq Fingerprint] in
theorem later (settled : Settled pass database next record reading) (carried : Carried next last)
    (untouched : Untouched next last record.listing) :
    Settled pass database last record reading := by
  refine ⟨untouched.current.trans settled.stamped, ?_, fun fingerprint changed => ?_⟩
  · obtain ⟨location, own, known, extracted, same⟩ := settled.claims
    exact ⟨location, own, known, extracted, fun fingerprint =>
      (untouched.holds carried fingerprint).trans (same fingerprint)⟩
  · rw [untouched.holds carried] at changed
    obtain ⟨row, queued, own⟩ := settled.enqueued fingerprint changed
    obtain ⟨kept, there, same⟩ := carried.queue row queued
    exact ⟨kept, there, same.trans own⟩

omit [DecidableEq Fingerprint] in
theorem earlier (settled : Settled pass next last record reading) (carried : Carried database next)
    (untouched : Untouched database next record.listing) :
    Settled pass database last record reading := by
  refine ⟨settled.stamped, ?_, fun fingerprint changed => ?_⟩
  · rw [← carried.contracts]
    exact settled.claims
  · rw [← untouched.holds carried] at changed
    exact settled.enqueued fingerprint changed

end Settled

theorem ReadingBatch.settled (sound : Sound pass identity database)
    (batch : ReadingBatch pass cap database records next) (listed : record ∈ records)
    (found : current pass database record.listing = some reading) :
    Settled pass database next record reading := by
  have unmined := (batch.distinct sound).2 record listed
  have moved := batch.restamped sound listed
  have chosen := unmined.reading
  rw [found] at chosen
  obtain ⟨own, its, same, enqueued⟩ := batch.claims sound listed
  refine ⟨?_, ?_, enqueued⟩
  · obtain ⟨first, leads, _⟩ := unmined.selects
    have stamp := ((@checked_preferred _ _ pass identity database record sound unmined
      (scopeOf pass database.contracts) first leads).2 reading found).1
    rw [(checkedBy_restamps _ _).current pass moved, found, Option.map_some]
    unfold Reading.checkedBy
    rw [stamp]
  · have read := (mem_readingsOf.mp (List.mem_of_mem_filter (preferred_some found).1)).2.1
    obtain ⟨location, known⟩ := Option.isSome_iff_exists.mp (Bool.and_eq_true_iff.mp read).1
    refine ⟨location, own, known, ?_, same (by rw [chosen]; rfl)⟩
    unfold mine at its
    rw [chosen, Option.map_some, known] at its
    exact its

/-! ### The loop -/

theorem Drained.untouched (sound : Sound pass identity database)
    (drained : Drained pass cap database last)
    (out : ∀ record ∈ unminedReadings pass database, record.listing.id ≠ listing.id) :
    Carried database last ∧ Untouched database last listing := by
  induction drained with
  | short batch less =>
      exact ⟨batch.carried, batch.untouched fun record listed =>
        out record (batch.selected.1 record listed)⟩
  | full batch whole rest ih =>
      have first := batch.untouched fun record listed =>
        out record (batch.selected.1 record listed)
      have later := ih (sound.batch batch) fun again selected same => by
        have untouched := batch.untouched fun record listed taken =>
          out record (batch.selected.1 record listed) (taken.trans same)
        exact out again ((untouched.mem_unmined batch.carried).mp selected) same
      exact ⟨batch.carried.trans later.1, first.trans later.2⟩

theorem Drained.settled (sound : Sound pass identity database)
    (drained : Drained pass cap database last)
    (selected : record ∈ unminedReadings pass database)
    (found : current pass database record.listing = some reading) :
    Settled pass database last record reading := by
  induction drained with
  | short batch less => exact batch.settled sound (batch.selected.2 less record selected) found
  | @full database next last records batch whole rest ih =>
      by_cases taken : ∃ one ∈ records, one.listing.id = record.listing.id
      · obtain ⟨one, listed, same⟩ := taken
        have own : one = record :=
          List.inj_on_of_nodup_map (nodup_unmined sound.listings sound.active)
            (batch.selected.1 one listed) selected same
        subst own
        obtain ⟨carried, untouched⟩ := rest.untouched (sound.batch batch)
          (batch.settles sound listed)
        exact (batch.settled sound listed found).later carried untouched
      · have untouched := batch.untouched fun one listed same => taken ⟨one, listed, same⟩
        exact (ih (sound.batch batch) ((untouched.mem_unmined batch.carried).mpr selected)
          (untouched.current.trans found)).earlier batch.carried untouched

/-- After the loop's last batch nothing is selected. -/
theorem Drained.empty (sound : Sound pass identity database)
    (drained : Drained pass cap database last) : unminedReadings pass last = [] := by
  induction drained with
  | @short database last records batch less =>
      rw [List.eq_nil_iff_forall_not_mem]
      intro again selected
      have untouched := batch.untouched fun record listed same =>
        batch.settles sound listed again selected same.symm
      have before := (untouched.mem_unmined batch.carried).mp selected
      exact batch.settles sound (batch.selected.2 less again before) again selected rfl
  | full batch whole rest ih => exact ih (sound.batch batch)

theorem FullBatches.sound {batches : Nat} (run : FullBatches pass cap database batches last)
    (sound : Sound pass identity database) : Sound pass identity last := by
  induction run with
  | start => exact sound
  | again batch full rest ih => exact ih (sound.batch batch)

theorem FullBatches.bounded {batches : Nat} (positive : 0 < cap)
    (run : FullBatches pass cap database batches last) (sound : Sound pass identity database) :
    batches ≤ (unminedReadings pass database).length := by
  induction run with
  | start => exact Nat.zero_le _
  | again batch full rest ih =>
      have falls := batch.falls sound
      have fewer := ih (sound.batch batch)
      omega

/-- Every entry may emit its claims, so that no batch is refused. -/
def Emits (database : Database Location Fingerprint) : Prop :=
  ∀ contract ∈ database.contracts, ∀ entry ∈ contract.entries,
    entry.defaultLicenceClass = "portal"

omit [DecidableEq Fingerprint] in
theorem mem_scopeOf {contracts : List Contract} {portal : Portal}
    (covered : portal ∈ scopeOf pass contracts) :
    ∃ contract ∈ contracts, portal.entries = readingEntries contract.entries := by
  obtain ⟨contract, held, made⟩ := List.mem_filterMap.mp covered
  split at made
  · cases made
    exact ⟨contract, held, rfl⟩
  · cases made

omit [DecidableEq Fingerprint] in
theorem Emits.mine (emits : Emits database) (unmined : Unmined pass database record) :
    ∃ claims, ReadingsPass.mine pass (scopeOf pass database.contracts) record = some claims := by
  unfold ReadingsPass.mine
  split
  · unfold extractListing
    obtain ⟨portal, covered, source⟩ := List.mem_map.mp unmined.covered
    split
    · rename_i absent
      exact absurd (decide_eq_true source) (List.find?_eq_none.mp absent portal covered)
    · rename_i portal own
      dsimp only
      rw [if_pos]
      · exact ⟨_, rfl⟩
      · rw [List.all_eq_true]
        intro claim made
        obtain ⟨entry, listed, said⟩ := List.mem_filterMap.mp made
        obtain ⟨value, _, rfl⟩ := Option.map_eq_some_iff.mp said
        obtain ⟨contract, held, entries⟩ := mem_scopeOf (List.mem_of_find?_eq_some own)
        rw [entries] at listed
        exact decide_eq_true (emits contract held entry
          (List.mem_of_mem_filter (List.mem_of_mem_filter listed)))
  · exact ⟨[], rfl⟩

omit [DecidableEq Fingerprint] in
theorem Emits.mineAll (emits : Emits database)
    (unmined : ∀ record ∈ records, Unmined pass database record) :
    ∃ claims, ReadingsPass.mineAll pass (scopeOf pass database.contracts) records =
      some claims := by
  induction records with
  | nil => exact ⟨[], rfl⟩
  | cons first rest ih =>
      obtain ⟨own, its⟩ := emits.mine (unmined first List.mem_cons_self)
      obtain ⟨others, mined⟩ := ih fun record listed =>
        unmined record (List.mem_cons_of_mem _ listed)
      refine ⟨own ++ others, ?_⟩
      unfold ReadingsPass.mineAll
      rw [its, mined]
      rfl

theorem Emits.drained (positive : 0 < cap) : ∀ {selected : Nat}
    {database : Database Location Fingerprint}, Emits database → Sound pass identity database →
      (unminedReadings pass database).length = selected → ∃ last, Drained pass cap database last := by
  intro selected
  induction selected using Nat.strong_induction_on with
  | _ selected ih =>
      intro database emits sound counted
      have within : ((unminedReadings pass database).take cap).Subperm
          (unminedReadings pass database) := (List.take_sublist _ _).subperm
      obtain ⟨claims, mined⟩ := @Emits.mineAll _ _ pass database
        ((unminedReadings pass database).take cap) emits fun record listed =>
          unmined_of_mem (within.subset listed)
      have batch := ReadingBatch.commit 0 _ claims within (List.length_take ..) mined
      by_cases short : ((unminedReadings pass database).take cap).length < cap
      · exact ⟨_, .short batch short⟩
      · have whole : ((unminedReadings pass database).take cap).length = cap := by
          rw [List.length_take] at short ⊢
          omega
        have falls := batch.falls sound
        obtain ⟨last, drained⟩ := ih _ (by omega) (by
          unfold Emits
          rw [batch.carried.contracts]
          exact emits) (sound.batch batch) rfl
        exact ⟨last, .full batch whole drained⟩

end Batch

/-- The readings pass on a database. -/
structure PassSettles [DecidableEq Fingerprint] (pass : Pass Location Fingerprint) (cap : Nat)
    (database : Database Location Fingerprint) : Prop where
  once : ∀ {batches : Nat} {reached next : Database Location Fingerprint}
    {records : List (Record Location)}, FullBatches pass cap database batches reached →
      ReadingBatch pass cap reached records next → ∀ record ∈ records,
        ∀ again ∈ unminedReadings pass next, again.listing.id ≠ record.listing.id
  bounded : ∀ {batches : Nat} {reached : Database Location Fingerprint},
    FullBatches pass cap database batches reached →
      batches ≤ (unminedReadings pass database).length
  ends : Emits database → ∃ last, Drained pass cap database last
  stamps : ∀ record ∈ unminedReadings pass database, Stamps database record.listing record.stamp
  empty : ∀ {last : Database Location Fingerprint}, Drained pass cap database last →
    unminedReadings pass last = []
  settled : ∀ {last : Database Location Fingerprint}, Drained pass cap database last →
    ∀ record ∈ unminedReadings pass database, ∀ reading,
      current pass database record.listing = some reading →
        Settled pass database last record reading

theorem readings_pass_settles [DecidableEq Fingerprint] {pass : Pass Location Fingerprint}
    {identity : Fingerprint → Nat × String × String × Option Nat} {cap : Nat}
    {database : Database Location Fingerprint} (positive : 0 < cap)
    (sound : Sound pass identity database) : PassSettles pass cap database where
  once := fun run batch _ listed => batch.settles (run.sound sound) listed
  bounded := fun run => run.bounded positive sound
  ends := fun emits => emits.drained positive sound rfl
  stamps := fun _ selected => (unmined_of_mem selected).stamped
  empty := fun drained => drained.empty sound
  settled := fun drained _ selected _ found => drained.settled sound selected found

/-- A pass over one listing: the value of a reading is the one its cell gives. -/
def samplePass : Pass (List (String × String)) (Nat × String × String × Nat × String) where
  source := some "bazos"
  listingIds := none
  version := some "2:x:m1"
  maxValueBytes := 65536
  sha256 := fun text =>
    if text = "Prodej bytu\nByt v Hradci Králové." then
      "f5b05d09f9f0b615bd6ee98127841aa306fd904350a88a6aed70d02edae0152f"
    else text
  supported := fun slots cells _ => slots.findSome? fun slot => cells.lookup slot
  fingerprint := fun claim =>
    (claim.listingId, claim.source, claim.claimType, claim.contractEntryId, claim.valueText)

/-- The advert changed its town: the claim of the older text waits to be superseded. -/
def sampleDatabase :
    Database (List (String × String)) (Nat × String × String × Nat × String) where
  listings := [⟨1, "bazos", some "n", some "Prodej bytu", some "Byt v Hradci Králové.", true, 5⟩]
  readings :=
    [⟨6, 1, some "cf9f54f298a4a7657b2152f94e9e5d645ed9de20cd0172fc45c21e0e9970a271",
        some "2:x:m1", 1, some [("town", "Švihov")], false, some "bazos@9"⟩,
      ⟨7, 1, some "f5b05d09f9f0b615bd6ee98127841aa306fd904350a88a6aed70d02edae0152f",
        some "2:x:m1", 2, some [("town", "Hradec Králové")], false, none⟩]
  contracts :=
    [⟨"bazos", 9, true, [⟨3, "bzs.txt.town", "description", "detail", some "text_reading", ["town"],
      "obec_name", "llm", true, [], "none", "portal"⟩]⟩]
  claims := [⟨1, "bazos", "obec_name", some 3, some "Švihov", (1, "bazos", "obec_name", 3, "Švihov")⟩]
  dirtyLocations := []

theorem readings_pass_sample :
    (unminedReadings samplePass sampleDatabase).map (·.stamp) = ["bazos@9"] ∧
      PassSettles samplePass 1000 sampleDatabase := by
  refine ⟨by decide +kernel, ?_⟩
  apply @readings_pass_settles _ _ _ _ fun print =>
    (print.1, print.2.1, print.2.2.1, some print.2.2.2.1)
  · decide
  · constructor
    · unfold Keyed
      decide
    · unfold Keyed
      decide
    · decide
    · decide
    · intro claim
      rfl
    · decide

end Sreality.LocationData.ReadingsPass
