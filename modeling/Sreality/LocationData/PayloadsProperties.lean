import Sreality.Foundation.Rounds
import Sreality.LocationData.Payloads

/-! The retention of one archive group does not depend on the path: whatever was appended, sighted
again or rolled back, the stored rows are the first version, the latest and the best of all that
were ever committed. -/

set_option autoImplicit false

namespace Sreality.LocationData.Payloads

open Sreality.Foundation

variable {Body Sha Profile : Type}

/-! ### Version numbers -/

/-- The versions in the order of their numbers, none used twice. -/
def Ascending (committed : List (PayloadVersion Body Sha)) : Prop :=
  (committed.map PayloadVersion.versionSeq).Pairwise (· < ·)

namespace Ascending

variable {committed : List (PayloadVersion Body Sha)} {one other : PayloadVersion Body Sha}

theorem eq (ascends : Ascending committed) (oneIn : one ∈ committed) (otherIn : other ∈ committed)
    (same : one.versionSeq = other.versionSeq) : one = other :=
  List.inj_on_of_nodup_map (ascends.imp fun less => less.ne) oneIn otherIn same

theorem nodup (ascends : Ascending committed) : committed.Nodup :=
  List.Nodup.of_map _ (ascends.imp fun less => less.ne)

theorem separates (ascends : Ascending committed) : ∀ one ∈ committed, ∀ other ∈ committed,
    one.rank = other.rank → one = other := by
  intro one oneIn other otherIn same
  have numbers := congrArg (fun rank => (ofLex (ofLex rank).2).1) same
  exact ascends.eq oneIn otherIn (by simpa [PayloadVersion.rank] using numbers)

theorem first_le (ascends : Ascending committed) (first : committed.head? = some one)
    (otherIn : other ∈ committed) : one.versionSeq ≤ other.versionSeq := by
  cases committed with
  | nil => cases first
  | cons head rest =>
      cases first
      rcases List.mem_cons.mp otherIn with rfl | later
      · exact le_rfl
      · exact ((List.pairwise_cons.mp ascends).1 _ (List.mem_map_of_mem later)).le

theorem le_latest (ascends : Ascending committed) (latest : committed.getLast? = some one)
    (otherIn : other ∈ committed) : other.versionSeq ≤ one.versionSeq := by
  obtain ⟨front, rfl⟩ := List.getLast?_eq_some_iff.mp latest
  unfold Ascending at ascends
  rw [List.map_append] at ascends
  rcases List.mem_append.mp otherIn with early | last
  · exact ((List.pairwise_append.mp ascends).2.2 _ (List.mem_map_of_mem early) _
      (by simp)).le
  · rw [List.mem_singleton.mp last]

theorem concat (ascends : Ascending committed)
    (above : ∀ version ∈ committed, version.versionSeq < one.versionSeq) :
    Ascending (committed ++ [one]) := by
  unfold Ascending
  rw [List.map_append]
  refine List.pairwise_append.mpr ⟨ascends, List.pairwise_singleton _ _, ?_⟩
  intro number listed last only
  obtain ⟨version, held, rfl⟩ := List.mem_map.mp listed
  rw [List.mem_singleton.mp only]
  exact above version held

end Ascending

/-! ### The statements on versions -/

theorem versions_sighted {applies : PayloadRow Body Sha → Bool} {observedAt : ℚ}
    {snapshotId : Option Nat} (rows : List (PayloadRow Body Sha)) :
    versions (updateRows applies (sighted observedAt snapshotId) rows) = versions rows := by
  unfold versions updateRows
  rw [List.map_map]
  apply List.map_congr_left
  intro row _
  by_cases applied : applies row <;> simp [applied, sighted]

theorem versions_repin (rows : List (PayloadRow Body Sha)) :
    versions (repinGroup rows) = versions rows := by
  unfold versions repinGroup
  rw [List.map_map]
  rfl

/-! ### The group between two calls -/

/-- A version the group keeps: the first, the latest, or one of the best of all ever committed. -/
def Keeps (cap : Nat) (committed : List (PayloadVersion Body Sha))
    (version : PayloadVersion Body Sha) : Prop :=
  committed.head? = some version ∨ committed.getLast? = some version ∨
    version ∈ firstBy PayloadVersion.rank cap committed

structure Retained (cap : Nat) (world : World Body Sha) : Prop where
  part : (versions world.rows).Sublist world.committed
  exact_ : ∀ version ∈ world.committed,
    version ∈ versions world.rows ↔ Keeps cap world.committed version
  ascends : Ascending world.committed
  uploaded : ∀ row ∈ world.rows, ∀ key, row.bodyR2Key = some key → key ∈ world.objects

namespace Retained

variable {cap : Nat} {world : World Body Sha}

theorem empty (rows : world.rows = []) (committed : world.committed = []) :
    Retained cap world where
  part := by
    rw [rows]
    exact List.nil_sublist _
  exact_ := by
    intro version held
    rw [committed] at held
    cases held
  ascends := by
    rw [committed]
    exact List.Pairwise.nil
  uploaded := by
    intro row held
    rw [rows] at held
    cases held

/-- The latest version is stored, so its number is the largest the group shows. -/
theorem lt_nextSeq (retained : Retained cap world) {version : PayloadVersion Body Sha}
    (held : version ∈ world.committed) : version.versionSeq < nextSeq world.rows := by
  cases latest : world.committed.getLast? with
  | none =>
      rw [List.getLast?_eq_none_iff] at latest
      rw [latest] at held
      cases held
  | some last =>
      have stored := (retained.exact_ last (List.mem_of_getLast? latest)).mpr (.inr (.inl latest))
      have shown := List.mem_map_of_mem (f := PayloadVersion.versionSeq) stored
      unfold nextSeq
      cases top : ((versions world.rows).map PayloadVersion.versionSeq).max? with
      | none =>
          rw [List.max?_eq_none_iff] at top
          rw [top] at shown
          cases shown
      | some most =>
          have bound := (List.max?_eq_some_iff.mp top).2 _ shown
          have before := retained.ascends.le_latest latest held
          rw [Option.getD_some]
          omega

/-- A call that adds no version keeps the group as it is. -/
theorem stays (retained : Retained cap world) {next : World Body Sha}
    (same : versions next.rows = versions world.rows) (told : next.committed = world.committed)
    (objects : ∀ key ∈ world.objects, key ∈ next.objects) : Retained cap next where
  part := by
    rw [same, told]
    exact retained.part
  exact_ := by
    rw [same, told]
    exact retained.exact_
  ascends := by
    rw [told]
    exact retained.ascends
  uploaded := by
    intro row held key spills
    have listed : row.toPayloadVersion ∈ versions world.rows := by
      rw [← same]
      exact List.mem_map_of_mem held
    obtain ⟨old, oldHeld, equal⟩ := List.mem_map.mp listed
    refine objects key (retained.uploaded old oldHeld key ?_)
    have keys := congrArg PayloadVersion.bodyR2Key equal
    exact keys.trans spills

end Retained

/-! ### One append -/

variable [DecidableEq Body] [DecidableEq Sha]

/-- What an append leaves of the versions it ranks. -/
theorem mem_versions_prune {cap : Nat} {rows : List (PayloadRow Body Sha)}
    {version : PayloadVersion Body Sha} :
    version ∈ versions (pruneGroup cap (repinGroup rows)) ↔ version ∈ versions rows ∧
      (some version.versionSeq = ((versions rows).map PayloadVersion.versionSeq).min? ∨
        some version.versionSeq = ((versions rows).map PayloadVersion.versionSeq).max? ∨
          version ∈ firstBy PayloadVersion.rank cap (versions rows)) := by
  unfold pruneGroup
  constructor
  · intro kept
    obtain ⟨row, held, rfl⟩ := List.mem_map.mp kept
    obtain ⟨pinned, keeps⟩ := List.mem_filter.mp held
    obtain ⟨old, listed, rfl⟩ := List.mem_map.mp pinned
    refine ⟨List.mem_map.mpr ⟨old, listed, rfl⟩, ?_⟩
    unfold spared at keeps
    rw [versions_repin] at keeps
    simpa [or_assoc] using keeps
  · rintro ⟨listed, keeps⟩
    obtain ⟨row, held, rfl⟩ := List.mem_map.mp listed
    refine List.mem_map.mpr ⟨_, List.mem_filter.mpr ⟨List.mem_map_of_mem held, ?_⟩, rfl⟩
    unfold spared
    rw [versions_repin]
    simpa [or_assoc] using keeps

theorem versions_prune_sublist {cap : Nat} {rows : List (PayloadRow Body Sha)} :
    (versions (pruneGroup cap (repinGroup rows))).Sublist (versions rows) := by
  have part := (List.filter_sublist (p := spared cap (repinGroup rows))
    (l := repinGroup rows)).map PayloadRow.toPayloadVersion
  rw [← versions_repin rows]
  exact part

namespace Retained

variable {cap : Nat} {world : World Body Sha}

/-- The versions ranked by an append hold all that the new state must keep. -/
theorem covers (retained : Retained cap world) {fresh : PayloadVersion Body Sha}
    (ascends : Ascending (world.committed ++ [fresh])) {version : PayloadVersion Body Sha}
    (held : version ∈ world.committed ++ [fresh])
    (keeps : Keeps cap (world.committed ++ [fresh]) version) :
    version ∈ versions world.rows ++ [fresh] := by
  by_cases new : version = fresh
  · rw [new]
    exact List.mem_append_right _ (List.mem_singleton_self _)
  · have old : version ∈ world.committed := by simpa [new] using held
    refine List.mem_append_left _ ((retained.exact_ version old).mpr ?_)
    rcases keeps with first | latest | best
    · refine .inl ?_
      rw [List.head?_append] at first
      cases found : world.committed.head? with
      | none =>
          rw [List.head?_eq_none_iff] at found
          rw [found] at old
          cases old
      | some head =>
          rw [found] at first
          exact first
    · rw [List.getLast?_concat] at latest
      exact absurd (Option.some.inj latest).symm new
    · exact .inr (.inr (mem_firstBy_of_concat ascends.nodup ascends.separates best new))

end Retained

omit [DecidableEq Body] [DecidableEq Sha] in
/-- Ranking the versions at hand keeps what ranking all of them would: the least and the greatest
number are the first's and the latest's, and the best are among them. -/
theorem ends_iff {cap : Nat} {committed part : List (PayloadVersion Body Sha)}
    (ascends : Ascending committed) (within : part.Sublist committed)
    (held : ∀ version ∈ committed, Keeps cap committed version → version ∈ part)
    {version : PayloadVersion Body Sha} :
    (version ∈ part ∧ (some version.versionSeq = (part.map PayloadVersion.versionSeq).min? ∨
      some version.versionSeq = (part.map PayloadVersion.versionSeq).max? ∨
        version ∈ firstBy PayloadVersion.rank cap part)) ↔
      version ∈ part ∧ Keeps cap committed version := by
  refine and_congr_right fun listed => ?_
  have known := within.subset listed
  have best : version ∈ firstBy PayloadVersion.rank cap part ↔
      version ∈ firstBy PayloadVersion.rank cap committed :=
    mem_firstBy_of_cover ascends.nodup ascends.separates (ascends.nodup.sublist within)
      (fun other otherIn => within.subset otherIn)
      (fun other taken => held other (mem_of_mem_firstBy taken) (.inr (.inr taken))) listed
  have least : some version.versionSeq = (part.map PayloadVersion.versionSeq).min? ↔
      committed.head? = some version := by
    constructor
    · intro min
      cases found : committed.head? with
      | none =>
          rw [List.head?_eq_none_iff] at found
          rw [found] at known
          cases known
      | some first =>
          have firstIn := List.mem_of_head? found
          have shown := held first firstIn (.inl found)
          have below := (List.min?_eq_some_iff.mp min.symm).2 _ (List.mem_map_of_mem shown)
          exact congrArg some (ascends.eq firstIn known
            (le_antisymm (ascends.first_le found known) below))
    · intro first
      refine (List.min?_eq_some_iff.mpr ⟨List.mem_map_of_mem listed, ?_⟩).symm
      intro number shown
      obtain ⟨other, otherIn, rfl⟩ := List.mem_map.mp shown
      exact ascends.first_le first (within.subset otherIn)
  have greatest : some version.versionSeq = (part.map PayloadVersion.versionSeq).max? ↔
      committed.getLast? = some version := by
    constructor
    · intro max
      cases found : committed.getLast? with
      | none =>
          rw [List.getLast?_eq_none_iff] at found
          rw [found] at known
          cases known
      | some last =>
          have lastIn := List.mem_of_getLast? found
          have shown := held last lastIn (.inr (.inl found))
          have above := (List.max?_eq_some_iff.mp max.symm).2 _ (List.mem_map_of_mem shown)
          exact congrArg some (ascends.eq lastIn known
            (le_antisymm above (ascends.le_latest found known)))
    · intro latest
      refine (List.max?_eq_some_iff.mpr ⟨List.mem_map_of_mem listed, ?_⟩).symm
      intro number shown
      obtain ⟨other, otherIn, rfl⟩ := List.mem_map.mp shown
      exact ascends.le_latest latest (within.subset otherIn)
  exact or_congr least (or_congr greatest best)

namespace Retained

variable {cap : Nat} {world : World Body Sha}

/-- An append keeps the group. -/
theorem appends (retained : Retained cap world) {row : PayloadRow Body Sha}
    (numbered : row.versionSeq = nextSeq world.rows) {next : World Body Sha}
    (rows : next.rows = pruneGroup cap (repinGroup (world.rows ++ [row])))
    (told : next.committed = world.committed ++ [row.toPayloadVersion])
    (objects : ∀ key, key ∈ world.objects ∨ row.bodyR2Key = some key → key ∈ next.objects) :
    Retained cap next := by
  have ascends : Ascending (world.committed ++ [row.toPayloadVersion]) :=
    retained.ascends.concat fun version held => numbered ▸ retained.lt_nextSeq held
  have ranked : versions (world.rows ++ [row]) = versions world.rows ++ [row.toPayloadVersion] := by
    unfold versions
    rw [List.map_append, List.map_singleton]
  have part : (versions (world.rows ++ [row])).Sublist
      (world.committed ++ [row.toPayloadVersion]) := by
    rw [ranked]
    exact retained.part.append (List.Sublist.refl _)
  have held : ∀ version ∈ world.committed ++ [row.toPayloadVersion],
      Keeps cap (world.committed ++ [row.toPayloadVersion]) version →
        version ∈ versions (world.rows ++ [row]) := by
    intro version listed keeps
    rw [ranked]
    exact retained.covers ascends listed keeps
  refine ⟨?_, ?_, ?_, ?_⟩
  · rw [rows, told]
    exact versions_prune_sublist.trans part
  · intro version listed
    rw [told] at listed ⊢
    rw [rows, mem_versions_prune, ends_iff ascends part held]
    constructor
    · rintro ⟨_, keeps⟩
      exact keeps
    · intro keeps
      exact ⟨held version listed keeps, keeps⟩
  · rw [told]
    exact ascends
  · intro stored listed key spills
    rw [rows] at listed
    obtain ⟨old, among, rfl⟩ := List.mem_map.mp (List.mem_of_mem_filter listed)
    refine objects key ?_
    rcases List.mem_append.mp among with early | new
    · exact .inl (retained.uploaded old early key spills)
    · rw [List.mem_singleton.mp new] at spills
      exact .inr spills

end Retained

/-! ### Every sequence of calls -/

section Calls

variable {tools : Instruments Body Sha Profile} {source : String} {cap : Nat}

/-- What a call that adds no version does to the group. -/
structure Untouched (world next : World Body Sha) : Prop where
  versions : versions next.rows = versions world.rows
  committed : next.committed = world.committed
  objects : ∀ key ∈ world.objects, key ∈ next.objects

/-- What a call that adds a version does: its hash was not stored, its object is uploaded. -/
structure Appended (tools : Instruments Body Sha Profile) (cap : Nat)
    (call : Append Body Profile) (world next : World Body Sha)
    (row : PayloadRow Body Sha) : Prop where
  fresh : ∀ stored ∈ world.rows, stored.payloadSha256 ≠ normSha tools call
  numbered : row.versionSeq = nextSeq world.rows
  rows : next.rows = pruneGroup cap (repinGroup (world.rows ++ [row]))
  committed : next.committed = world.committed ++ [row.toPayloadVersion]
  objects : ∀ key, key ∈ world.objects ∨ row.bodyR2Key = some key → key ∈ next.objects

theorem transact_cases (world : World Body Sha) (call : Append Body Profile)
    (placement : BodyPlacement Body) :
    Untouched world (transact tools cap world call placement).1 ∨
      ∃ row, Appended tools cap call world (transact tools cap world call placement).1 row ∧
        ∃ ref, (transact tools cap world call placement).2 = .ok ref ∧ ref.inserted = true ∧
          ref.versionSeq = row.versionSeq := by
  unfold transact
  dsimp only
  split
  · split_ifs with stopped
    · exact .inl ⟨rfl, rfl, fun _ held => held⟩
    · exact .inl ⟨versions_sighted _, rfl, fun _ held => held⟩
  · rename_i absent
    split_ifs with failed stopped
    · exact .inl ⟨rfl, rfl, fun _ held => held⟩
    · exact .inl ⟨rfl, rfl, fun _ held => List.mem_append_left _ held⟩
    · refine .inr ⟨inserted tools world call placement, ⟨?_, rfl, rfl, rfl, ?_⟩, _, rfl, rfl, rfl⟩
      · intro stored held same
        exact List.find?_eq_none.mp absent stored held (decide_eq_true same)
      · rintro key (held | spills)
        · exact List.mem_append_left _ held
        · exact List.mem_append_right _ (Option.mem_toList.mpr spills)

theorem appendPayload_cases (world : World Body Sha) (call : Append Body Profile) :
    Untouched world (appendPayload tools source cap world call).1 ∨
      ∃ row, Appended tools cap call world (appendPayload tools source cap world call).1 row ∧
        ∃ ref, (appendPayload tools source cap world call).2 = .ok ref ∧ ref.inserted = true ∧
          ref.versionSeq = row.versionSeq := by
  have same : Untouched world world := ⟨rfl, rfl, fun _ held => held⟩
  unfold appendPayload
  split_ifs with untyped unstamped
  · exact .inl same
  · exact .inl same
  · split
    · exact .inl same
    · split_ifs with storeless
      · exact .inl same
      · exact transact_cases world call _

theorem Retained.appendPayload {world : World Body Sha} (retained : Retained cap world)
    (call : Append Body Profile) : Retained cap (appendPayload tools source cap world call).1 := by
  rcases appendPayload_cases world call with
    same | ⟨row, added, _⟩
  · exact retained.stays same.versions same.committed same.objects
  · exact retained.appends added.numbered added.rows added.committed added.objects

theorem Retained.appendAll {world : World Body Sha} (retained : Retained cap world)
    (calls : List (Append Body Profile)) : Retained cap (appendAll tools source cap world calls) :=
  foldl_invariant (Retained cap) (fun _ kept call _ => kept.appendPayload call) retained

/-- The stored rows are the first version, the latest and the best of all that were committed,
whatever the calls were. -/
theorem append_payload_retention {start : World Body Sha} (rows : start.rows = [])
    (committed : start.committed = []) (calls : List (Append Body Profile))
    {world : World Body Sha} (reached : world = appendAll tools source cap start calls) :
    (∀ version, version ∈ versions world.rows ↔
      version ∈ world.committed ∧ Keeps cap world.committed version) ∧
    (versions world.rows).Nodup ∧ Ascending world.committed ∧
    (∀ row ∈ world.rows, ∀ key, row.bodyR2Key = some key → key ∈ world.objects) ∧
    (∀ call : Append Body Profile, (∃ row ∈ world.rows, row.payloadSha256 = normSha tools call) →
      versions (Payloads.appendPayload tools source cap world call).1.rows =
        versions world.rows) ∧
    ∀ call : Append Body Profile,
      (Payloads.appendPayload tools source cap world call).1.committed = world.committed ∨
      ∃ version ref, (Payloads.appendPayload tools source cap world call).2 = .ok ref ∧
        ref.inserted = true ∧ ref.versionSeq = version.versionSeq ∧
          (Payloads.appendPayload tools source cap world call).1.committed =
            world.committed ++ [version] := by
  have retained : Retained cap world := reached ▸ (Retained.empty rows committed).appendAll calls
  refine ⟨fun version => ?_, retained.ascends.nodup.sublist retained.part, retained.ascends,
    retained.uploaded, fun call stored => ?_, fun call => ?_⟩
  · constructor
    · intro kept
      have known := retained.part.subset kept
      exact ⟨known, (retained.exact_ version known).mp kept⟩
    · rintro ⟨known, keeps⟩
      exact (retained.exact_ version known).mpr keeps
  · obtain ⟨row, held, same⟩ := stored
    rcases appendPayload_cases world call with
      untouched | ⟨_, added, _⟩
    · exact untouched.versions
    · exact absurd same (added.fresh row held)
  · rcases appendPayload_cases world call with untouched | ⟨row, added, ref, answer, new, number⟩
    · exact .inl untouched.committed
    · exact .inr ⟨_, ref, answer, new, number, added.committed⟩

end Calls

/-! ### An outage -/

def plainTools : Instruments String String Unit where
  normSha256 := fun _ _ body => body
  rawSha256 := id
  hex := id
  gzip := id
  size := String.length
  resolved := ((), "base")
  gzipMinBytes := 8192
  r2ThresholdBytes := 2048

def fetched (body : String) (httpStatus : Option Int) : Append String Unit where
  listingId := some 1
  body := body
  contentType := "text/html"
  httpStatus := httpStatus
  contractVersion := none
  observedAt := 0
  snapshotId := none
  volatile := none
  normalizerVersion := none
  storeConfigured := true
  uploadFails := false
  interrupted := false

/-- Two pages and then an outage that never answers the same body twice. -/
def outage : List (Append String Unit) :=
  [fetched "first" none, fetched "second" (some 200), fetched "busy 1" (some 503),
    fetched "busy 2" (some 503), fetched "busy 3" (some 503)]

def emptyGroup : World String String :=
  { rows := [], nextId := 1, objects := [], elsewhere := [], committed := [] }

/-- The outage evicts itself: both pages stay under a cap of two. -/
theorem outage_retention :
    (versions (appendAll plainTools "idnes" 2 emptyGroup outage).rows).map
      PayloadVersion.versionSeq = [1, 2, 5] ∧
    Ascending (appendAll plainTools "idnes" 2 emptyGroup outage).committed :=
  ⟨by decide +kernel, (append_payload_retention rfl rfl outage rfl).2.2.1⟩

end Sreality.LocationData.Payloads
