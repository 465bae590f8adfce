import Sreality.Autodedup.ConstrainedUnionProperties

/-! The accounts of the union-find mode. Each merge edge either finds its ends
joined, joins them, or leaves one row; a refused row keeps the member set that broke
an invariant, and its ends stay apart exactly until a later union accepts that set
inside a wider one. -/

set_option autoImplicit false

namespace Sreality.Autodedup

open Sreality.Foundation

/-- What a row says of the edge it records. -/
abbrev EdgeRow := Nat × Nat × ℚ × Option String × List String

def Decision.row (decision : Decision) : EdgeRow :=
  (decision.lo, decision.hi, decision.score, decision.certificate, sortedIds decision.families)

def Conflict.row (conflict : Conflict) : EdgeRow :=
  (conflict.lo, conflict.hi, conflict.score, conflict.certificate, conflict.families)

def Bridge.row (bridge : Bridge) : EdgeRow :=
  (bridge.lo, bridge.hi, bridge.score, bridge.certificate, bridge.families)

/-- The ends of a row lie in two classes. -/
def rowApart (uf : UnionFind) (row : EdgeRow) : Bool := uf.find row.1 != uf.find row.2.1

/-- A refused row: its members, its ends among them and the others of their classes,
broke an invariant. -/
structure Refused (grounds : Grounds) (uf : UnionFind) (row : Conflict) : Prop where
  differ : row.lo ≠ row.hi
  distinct : row.members.Nodup
  inside : row.members ⊆ uf.items
  low : row.lo ∈ row.members
  high : row.hi ∈ row.members
  broken : grounds.refusal row.members ≠ none
  classes : ∀ member ∈ row.members,
    uf.find member = uf.find row.lo ∨ uf.find member = uf.find row.hi

/-- The set a union of two adverts' classes makes. -/
def UnionFind.merged (uf : UnionFind) (lo hi : Nat) : List Nat :=
  uf.members (uf.find lo) ++ uf.members (uf.find hi)

theorem UnionFind.WellFormed.mem_merged {uf : UnionFind} (valid : uf.WellFormed)
    {lo hi item : Nat} : item ∈ uf.merged lo hi ↔
      item ∈ uf.items ∧ (uf.find item = uf.find lo ∨ uf.find item = uf.find hi) := by
  rw [UnionFind.merged, List.mem_append, valid.mem_members, valid.mem_members, and_or_left]

theorem UnionFind.WellFormed.nodup_merged {uf : UnionFind} (valid : uf.WellFormed)
    {lo hi : Nat} (apart : uf.find lo ≠ uf.find hi) : (uf.merged lo hi).Nodup := by
  refine (valid.nodup_members _).append (valid.nodup_members _) ?_
  intro item inLow inHigh
  exact apart ((valid.mem_members.mp inLow).2.symm.trans (valid.mem_members.mp inHigh).2)

/-- A union that the pass makes when it is not held back as a bridge. -/
def Admitted (grounds : Grounds) (uf : UnionFind) (lo hi : Nat) : Prop :=
  uf.find lo ≠ uf.find hi ∧ grounds.refusal (uf.merged lo hi) = none

instance (grounds : Grounds) (uf : UnionFind) (lo hi : Nat) :
    Decidable (Admitted grounds uf lo hi) :=
  inferInstanceAs (Decidable (_ ∧ _))

/-- No refused row's whole member set goes, with a limb lifted, into a wider set. -/
def Unlifted (grounds : Grounds) (refused : List Conflict) (whole : List Nat) : Prop :=
  ∀ row ∈ refused, ¬ grounds.Lifts row.members whole

instance (grounds : Grounds) (refused : List Conflict) (whole : List Nat) :
    Decidable (Unlifted grounds refused whole) :=
  inferInstanceAs (Decidable (∀ row ∈ _, ¬ _))

/-- A recorded bridge the bridge pass offers again. -/
def Reoffered (grounds : Grounds) (bridge : Bridge) : Prop :=
  certifies bridge.certificate = true ∨ grounds.settings.bridgeMinScore ≤ bridge.score

instance (grounds : Grounds) (bridge : Bridge) : Decidable (Reoffered grounds bridge) :=
  inferInstanceAs (Decidable (_ ∨ _))

/-- An edge between two classes of several adverts each. -/
def Bridging (pass : ClusterPass) (decision : Decision) : Prop :=
  1 < (pass.unionFind.members (pass.unionFind.find decision.lo)).length ∧
    1 < (pass.unionFind.members (pass.unionFind.find decision.hi)).length

instance (pass : ClusterPass) (decision : Decision) : Decidable (Bridging pass decision) :=
  inferInstanceAs (Decidable (_ ∧ _))

/-- No bridge re-offered from here on is applied where a limb of a refused row is lifted. -/
def BridgesUnlifted (grounds : Grounds) (refused : List Conflict) :
    UnionFind × List Bridge → List Bridge → Prop
  | _, [] => True
  | state, bridge :: rest =>
      (Reoffered grounds bridge → Admitted grounds state.1 bridge.lo bridge.hi →
        Unlifted grounds refused (state.1.merged bridge.lo bridge.hi)) ∧
      BridgesUnlifted grounds refused (bridgeStep grounds state bridge) rest

/-- No union made from here on, by an edge or by a bridge, is made where a limb of
a row refused before it is lifted. -/
def PassUnlifted (grounds : Grounds) : ClusterPass → List Decision → Prop
  | pass, [] => grounds.settings.bridgeApply = true →
      BridgesUnlifted grounds pass.conflicts (pass.unionFind, []) (sortedBy bridgeRank pass.bridges)
  | pass, decision :: rest =>
      (¬ Bridging pass decision → Admitted grounds pass.unionFind decision.lo decision.hi →
        Unlifted grounds pass.conflicts (pass.unionFind.merged decision.lo decision.hi)) ∧
      PassUnlifted grounds (clusterStep grounds pass decision) rest

instance bridgesUnliftedDecidable (grounds : Grounds) (refused : List Conflict) :
    (state : UnionFind × List Bridge) → (bridges : List Bridge) →
      Decidable (BridgesUnlifted grounds refused state bridges)
  | _, [] => isTrue trivial
  | state, bridge :: rest =>
      have := bridgesUnliftedDecidable grounds refused (bridgeStep grounds state bridge) rest
      inferInstanceAs (Decidable (_ ∧ _))

instance passUnliftedDecidable (grounds : Grounds) :
    (pass : ClusterPass) → (edges : List Decision) → Decidable (PassUnlifted grounds pass edges)
  | _, [] => inferInstanceAs (Decidable (_ → BridgesUnlifted _ _ _ _))
  | pass, decision :: rest =>
      have := passUnliftedDecidable grounds (clusterStep grounds pass decision) rest
      inferInstanceAs (Decidable (_ ∧ _))

section Steps

variable {grounds : Grounds}

/-- What one edge does to the pass. -/
theorem clusterStep_cases (grounds : Grounds) (pass : ClusterPass) (decision : Decision) :
    (pass.unionFind.find decision.lo = pass.unionFind.find decision.hi ∧
      clusterStep grounds pass decision = pass) ∨
    (∃ bridge : Bridge, bridge.row = decision.row ∧ bridge.applied = false ∧
      Bridging pass decision ∧
      clusterStep grounds pass decision = { pass with bridges := pass.bridges ++ [bridge] }) ∨
    (∃ conflict : Conflict, conflict.row = decision.row ∧
      conflict.members = sortedIds (pass.unionFind.merged decision.lo decision.hi) ∧
      pass.unionFind.find decision.lo ≠ pass.unionFind.find decision.hi ∧
      grounds.refusal (pass.unionFind.merged decision.lo decision.hi) ≠ none ∧
      clusterStep grounds pass decision =
        { pass with conflicts := pass.conflicts ++ [conflict] }) ∨
    (¬ Bridging pass decision ∧ Admitted grounds pass.unionFind decision.lo decision.hi ∧
      clusterStep grounds pass decision = { pass with
        unionFind :=
          pass.unionFind.union (pass.unionFind.find decision.lo) (pass.unionFind.find decision.hi) })
    := by
  unfold clusterStep
  dsimp only
  split_ifs with same several
  · exact .inl ⟨same, rfl⟩
  · exact .inr (.inl ⟨_, rfl, rfl, several, rfl⟩)
  · cases refused : grounds.refusal (pass.unionFind.members (pass.unionFind.find decision.lo) ++
        pass.unionFind.members (pass.unionFind.find decision.hi)) with
    | some invariant =>
        refine .inr (.inr (.inl ⟨_, rfl, rfl, same, ?_, rfl⟩))
        rw [UnionFind.merged, refused]
        exact Option.some_ne_none invariant
    | none => exact .inr (.inr (.inr ⟨several, ⟨same, refused⟩, rfl⟩))

/-- What one re-offered bridge does: its row is settled, and applied exactly when
its classes are joined by a tested union. -/
theorem bridgeStep_cases (grounds : Grounds) (uf : UnionFind) (settled : List Bridge)
    (bridge : Bridge) : ∃ row : Bridge, row.row = bridge.row ∧
      ((row.applied = bridge.applied ∧
        ¬ (Reoffered grounds bridge ∧ Admitted grounds uf bridge.lo bridge.hi) ∧
        bridgeStep grounds (uf, settled) bridge = (uf, settled ++ [row])) ∨
      (Reoffered grounds bridge ∧ Admitted grounds uf bridge.lo bridge.hi ∧
        bridgeStep grounds (uf, settled) bridge =
          (uf.union (uf.find bridge.lo) (uf.find bridge.hi), settled ++ [row]))) := by
  unfold bridgeStep
  dsimp only
  split_ifs with weak same
  · refine ⟨{ bridge with invariant := some .bridgeScore }, rfl, .inl ⟨rfl, ?_, rfl⟩⟩
    rintro ⟨offered, _⟩
    simp [Reoffered] at weak offered
    exact offered.elim (fun certified => by simp [certified] at weak)
      fun scored => absurd weak.2 (not_lt.mpr scored)
  · exact ⟨{ bridge with invariant := some .redundant }, rfl,
      .inl ⟨rfl, fun ⟨_, apart, _⟩ => apart same, rfl⟩⟩
  · have offered : Reoffered grounds bridge := by
      unfold Reoffered
      simp only [Bool.not_eq_true', Bool.not_eq_false, Bool.or_eq_true, decide_eq_true_eq] at weak
      exact weak
    cases refused : grounds.refusal
        (uf.members (uf.find bridge.lo) ++ uf.members (uf.find bridge.hi)) with
    | some invariant =>
        refine ⟨{ bridge with invariant := some invariant }, rfl, .inl ⟨rfl, ?_, rfl⟩⟩
        rintro ⟨_, _, accepted⟩
        exact absurd (refused.symm.trans accepted) (Option.some_ne_none invariant)
    | none => exact ⟨{ bridge with applied := true }, rfl, .inr ⟨offered, ⟨same, refused⟩, rfl⟩⟩

variable {links : Nat → Nat → Prop}

/-- The ends of these rows were seen by the union-find and are linked. -/
def Seen (links : Nat → Nat → Prop) (uf : UnionFind) (lo hi : Nat) : Prop :=
  lo ∈ uf.items ∧ hi ∈ uf.items ∧ links lo hi

theorem Seen.run {uf next : UnionFind} (sound : uf.Sound grounds)
    (run : UnionRun grounds links uf next) {lo hi : Nat} (seen : Seen links uf lo hi) :
    Seen links next lo hi :=
  ⟨(UnionRun.mem_items sound run).mpr seen.1, (UnionRun.mem_items sound run).mpr seen.2.1,
    seen.2.2⟩

theorem Refused.run {uf next : UnionFind} (sound : uf.Sound grounds)
    (run : UnionRun grounds links uf next) {row : Conflict} (refused : Refused grounds uf row) :
    Refused grounds next row :=
  { refused with
    inside := fun _ held => (UnionRun.mem_items sound run).mpr (refused.inside held)
    classes := fun member held => (refused.classes member held).imp run.same run.same }

/-- Where the two ends of a refused row are apart, one union joins them exactly when it
takes the row's members in, a limb lifted. -/
theorem Refused.joined_iff {uf : UnionFind} (sound : uf.Sound grounds) {row : Conflict}
    (refused : Refused grounds uf row) (apart : uf.find row.lo ≠ uf.find row.hi) {lo hi : Nat}
    (admitted : Admitted grounds uf lo hi) :
    (uf.union (uf.find lo) (uf.find hi)).find row.lo =
        (uf.union (uf.find lo) (uf.find hi)).find row.hi ↔
      grounds.Lifts row.members (uf.merged lo hi) := by
  have wellFormed := sound.wellFormed
  constructor
  · intro joined
    -- A union that joins two classes takes both of them in.
    have taken : (uf.find row.lo = uf.find lo ∨ uf.find row.lo = uf.find hi) ∧
        (uf.find row.hi = uf.find lo ∨ uf.find row.hi = uf.find hi) := by
      rw [UnionFind.find_unionRoots, UnionFind.find_unionRoots] at joined
      split_ifs at joined with low high high
      · exact ⟨low, high⟩
      · rcases min_choice (uf.find lo) (uf.find hi) with choice | choice <;>
          rw [choice] at joined <;> simp [joined] at high
      · rcases min_choice (uf.find lo) (uf.find hi) with choice | choice <;>
          rw [choice] at joined <;> simp [joined] at low
      · exact absurd joined apart
    refine Grounds.lifts_of_refused (Grounds.refusal_eq_none_iff.mp admitted.2)
      refused.distinct ?_ refused.broken
    intro member held
    refine wellFormed.mem_merged.mpr ⟨refused.inside held, ?_⟩
    rcases refused.classes member held with same | same <;> rw [same]
    · exact taken.1
    · exact taken.2
  · intro lifted
    have low := (wellFormed.mem_merged.mp (lifted.1 refused.low)).2
    have high := (wellFormed.mem_merged.mp (lifted.1 refused.high)).2
    rw [UnionFind.find_unionRoots, UnionFind.find_unionRoots, if_pos low, if_pos high]

/-- The ends of every row stand apart. -/
def Parted (uf : UnionFind) (rows : List Conflict) : Prop :=
  ∀ row ∈ rows, uf.find row.lo ≠ uf.find row.hi

theorem Parted.of_run {uf next : UnionFind} {rows : List Conflict}
    (run : UnionRun grounds links uf next) (parted : Parted next rows) : Parted uf rows :=
  fun row listed same => parted row listed (run.same same)

theorem parted_union_iff {uf : UnionFind} (sound : uf.Sound grounds) {rows : List Conflict}
    (refused : ∀ row ∈ rows, Refused grounds uf row) (parted : Parted uf rows) {lo hi : Nat}
    (admitted : Admitted grounds uf lo hi) :
    Parted (uf.union (uf.find lo) (uf.find hi)) rows ↔
      Unlifted grounds rows (uf.merged lo hi) :=
  forall₂_congr fun row listed =>
    not_congr ((refused row listed).joined_iff sound (parted row listed) admitted)

theorem clusterStep_run (grounds : Grounds) {pass : ClusterPass} {decision : Decision}
    (seen : Seen links pass.unionFind decision.lo decision.hi) :
    UnionRun grounds links pass.unionFind (clusterStep grounds pass decision).unionFind := by
  rcases clusterStep_cases grounds pass decision with ⟨_, equal⟩ | ⟨_, _, _, _, equal⟩ |
    ⟨_, _, _, _, _, equal⟩ | ⟨_, ⟨apart, accepted⟩, equal⟩
  · rw [equal]
  · rw [equal]
  · rw [equal]
  · rw [equal]
    exact .single (.unite seen.1 seen.2.1 apart seen.2.2 accepted)

/-- What holds of a pass in progress. -/
structure PassHolds (grounds : Grounds) (links : Nat → Nat → Prop) (pass : ClusterPass) : Prop where
  sound : pass.unionFind.Sound grounds
  refused : ∀ conflict ∈ pass.conflicts, Refused grounds pass.unionFind conflict
  bridged : ∀ bridge ∈ pass.bridges,
    bridge.applied = false ∧ Seen links pass.unionFind bridge.lo bridge.hi

theorem PassHolds.step {pass : ClusterPass} (holds : PassHolds grounds links pass)
    {decision : Decision} (seen : Seen links pass.unionFind decision.lo decision.hi) :
    PassHolds grounds links (clusterStep grounds pass decision) := by
  have run := clusterStep_run grounds seen
  have sound := UnionRun.sound holds.sound run
  have refused : ∀ conflict ∈ pass.conflicts,
      Refused grounds (clusterStep grounds pass decision).unionFind conflict :=
    fun conflict listed => (holds.refused conflict listed).run holds.sound run
  have bridged : ∀ bridge ∈ pass.bridges, bridge.applied = false ∧
      Seen links (clusterStep grounds pass decision).unionFind bridge.lo bridge.hi :=
    fun bridge listed => ⟨(holds.bridged bridge listed).1,
      (holds.bridged bridge listed).2.run holds.sound run⟩
  have seenAfter := seen.run holds.sound run
  rcases clusterStep_cases grounds pass decision with ⟨_, equal⟩ |
    ⟨bridge, row, unapplied, _, equal⟩ | ⟨conflict, row, members, apart, broken, equal⟩ |
    ⟨_, _, equal⟩
  · exact ⟨sound, by rw [equal] at refused ⊢; exact refused,
      by rw [equal] at bridged ⊢; exact bridged⟩
  · rw [equal] at sound refused bridged seenAfter ⊢
    refine ⟨sound, refused, ?_⟩
    intro other listed
    rcases List.mem_append.mp listed with earlier | new
    · exact bridged other earlier
    · rw [List.mem_singleton.mp new]
      have lo : bridge.lo = decision.lo := congrArg Prod.fst row
      have hi : bridge.hi = decision.hi := congrArg (fun row : EdgeRow => row.2.1) row
      rw [lo, hi]
      exact ⟨unapplied, seenAfter⟩
  · rw [equal] at sound refused bridged ⊢
    refine ⟨sound, ?_, bridged⟩
    intro other listed
    rcases List.mem_append.mp listed with earlier | new
    · exact refused other earlier
    · rw [List.mem_singleton.mp new]
      have lo : conflict.lo = decision.lo := congrArg Prod.fst row
      have hi : conflict.hi = decision.hi := congrArg (fun row : EdgeRow => row.2.1) row
      have mem_row : ∀ item, item ∈ conflict.members ↔ item ∈ pass.unionFind.items ∧
          (pass.unionFind.find item = pass.unionFind.find decision.lo ∨
            pass.unionFind.find item = pass.unionFind.find decision.hi) := by
        intro item
        rw [members, mem_sortedBy, holds.sound.wellFormed.mem_merged]
      refine ⟨?_, ?_, fun item held => ((mem_row item).mp held).1, ?_, ?_, ?_, ?_⟩
      · rw [lo, hi]
        exact fun same => apart (congrArg _ same)
      · rw [members, nodup_sortedBy]
        exact holds.sound.wellFormed.nodup_merged apart
      · rw [lo, mem_row]
        exact ⟨seen.1, .inl rfl⟩
      · rw [hi, mem_row]
        exact ⟨seen.2.1, .inr rfl⟩
      · rw [members, Ne, Grounds.refusal_eq_none_iff]
        exact fun valid => broken
          (Grounds.refusal_eq_none_iff.mpr (valid.perm (sortedBy_perm id _)))
      · rw [lo, hi]
        exact fun item held => ((mem_row item).mp held).2
  · rw [equal] at sound refused bridged ⊢
    exact ⟨sound, refused, bridged⟩

/-- The whole pass: what holds of it, and the rows it leaves for the edges whose
ends it never joins, up to a later run of unions. -/
theorem clusterFold {edges : List Decision} :
    ∀ {pass : ClusterPass}, PassHolds grounds links pass →
      (∀ decision ∈ edges, Seen links pass.unionFind decision.lo decision.hi) →
        PassHolds grounds links (edges.foldl (clusterStep grounds) pass) ∧
        UnionRun grounds links pass.unionFind
          (edges.foldl (clusterStep grounds) pass).unionFind ∧
        ∀ final, UnionRun grounds links (edges.foldl (clusterStep grounds) pass).unionFind final →
          (((edges.foldl (clusterStep grounds) pass).conflicts.map Conflict.row ++
            (edges.foldl (clusterStep grounds) pass).bridges.map Bridge.row).filter
              (rowApart final)).Perm
          ((pass.conflicts.map Conflict.row ++ pass.bridges.map Bridge.row ++
            edges.map Decision.row).filter (rowApart final)) := by
  induction edges with
  | nil => exact fun holds _ => ⟨holds, .refl, fun final _ => by simp⟩
  | cons decision rest ih =>
      intro pass holds seen
      have here := seen decision List.mem_cons_self
      have step := clusterStep_run grounds here
      have later : ∀ other ∈ rest,
          Seen links (clusterStep grounds pass decision).unionFind other.lo other.hi :=
        fun other listed => (seen other (List.mem_cons_of_mem _ listed)).run holds.sound step
      obtain ⟨held, run, rows⟩ := ih (holds.step here) later
      refine ⟨held, step.trans run, ?_⟩
      intro final finish
      refine (rows final finish).trans ?_
      have joined : (clusterStep grounds pass decision).unionFind.find decision.lo =
          (clusterStep grounds pass decision).unionFind.find decision.hi →
            rowApart final decision.row = false := by
        intro same
        have still := UnionRun.same (run.trans finish) same
        simpa [rowApart, Decision.row] using still
      rw [List.map_cons]
      rcases clusterStep_cases grounds pass decision with ⟨same, equal⟩ |
        ⟨bridge, row, _, _, equal⟩ | ⟨conflict, row, _, _, _, equal⟩ | ⟨_, _, equal⟩
      · rw [equal] at joined ⊢
        simp [List.filter_append, joined same]
      · rw [equal, ← row]
        refine List.Perm.filter _ ?_
        simp [List.append_assoc]
      · rw [equal, ← row]
        refine List.Perm.filter _ ?_
        simp only [List.map_append, List.map_cons, List.map_nil, List.append_assoc]
        refine List.Perm.append_left _ ?_
        simp only [List.singleton_append]
        exact List.perm_middle.symm
      · have same : (clusterStep grounds pass decision).unionFind.find decision.lo =
            (clusterStep grounds pass decision).unionFind.find decision.hi := by
          rw [equal]
          simp [UnionFind.find_unionRoots]
        rw [equal]
        simp [List.filter_append, joined same]

theorem bridgeStep_run (grounds : Grounds) {state : UnionFind × List Bridge} {bridge : Bridge}
    (seen : Seen links state.1 bridge.lo bridge.hi) :
    UnionRun grounds links state.1 (bridgeStep grounds state bridge).1 := by
  obtain ⟨row, _, ⟨_, _, equal⟩ | ⟨_, ⟨apart, accepted⟩, equal⟩⟩ :=
    bridgeStep_cases grounds state.1 state.2 bridge
  · rw [equal]
  · rw [equal]
    exact .single (.unite seen.1 seen.2.1 apart seen.2.2 accepted)

theorem bridgeFold_run {bridges : List Bridge} :
    ∀ state : UnionFind × List Bridge, state.1.Sound grounds →
      (∀ bridge ∈ bridges, Seen links state.1 bridge.lo bridge.hi) →
        UnionRun grounds links state.1 (bridges.foldl (bridgeStep grounds) state).1 := by
  induction bridges with
  | nil => exact fun _ _ _ => .refl
  | cons bridge rest ih =>
      intro state sound offered
      have step := bridgeStep_run grounds (offered bridge List.mem_cons_self)
      refine step.trans (ih _ (UnionRun.sound sound step) fun other listed => ?_)
      exact (offered other (List.mem_cons_of_mem _ listed)).run sound step

/-- The bridge pass: the rows keep what they say of their edges, and an applied
one has its ends joined. -/
theorem bridgeFold {bridges : List Bridge} :
    ∀ {uf : UnionFind} {settled : List Bridge}, uf.Sound grounds →
      (∀ bridge ∈ bridges, bridge.applied = false ∧ Seen links uf bridge.lo bridge.hi) →
      (∀ bridge ∈ settled, bridge.applied = true → uf.find bridge.lo = uf.find bridge.hi) →
        (bridges.foldl (bridgeStep grounds) (uf, settled)).2.map Bridge.row =
          settled.map Bridge.row ++ bridges.map Bridge.row ∧
        ∀ bridge ∈ (bridges.foldl (bridgeStep grounds) (uf, settled)).2, bridge.applied = true →
          (bridges.foldl (bridgeStep grounds) (uf, settled)).1.find bridge.lo =
            (bridges.foldl (bridgeStep grounds) (uf, settled)).1.find bridge.hi := by
  induction bridges with
  | nil => exact fun _ _ applied => ⟨by simp, applied⟩
  | cons bridge rest ih =>
      intro uf settled sound offered applied
      obtain ⟨unapplied, seen⟩ := offered bridge List.mem_cons_self
      obtain ⟨row, sameRow, ⟨untouched, _, equal⟩ | ⟨_, ⟨apart, accepted⟩, equal⟩⟩ :=
        bridgeStep_cases grounds uf settled bridge
      · have next := @ih _ (settled ++ [row]) sound
          (fun other listed => offered other (List.mem_cons_of_mem _ listed)) (by
            intro other listed flag
            rcases List.mem_append.mp listed with earlier | new
            · exact applied other earlier flag
            · rw [List.mem_singleton.mp new, untouched, unapplied] at flag
              exact Bool.noConfusion flag)
        rw [List.foldl_cons, equal]
        refine ⟨?_, next.2⟩
        rw [next.1]
        simp [sameRow]
      · have step : UnionStep grounds links uf
            (uf.union (uf.find bridge.lo) (uf.find bridge.hi)) :=
          .unite seen.1 seen.2.1 apart seen.2.2 accepted
        have lo : row.lo = bridge.lo := congrArg Prod.fst sameRow
        have hi : row.hi = bridge.hi := congrArg (fun row : EdgeRow => row.2.1) sameRow
        have next := @ih _ (settled ++ [row]) (step.sound sound)
          (fun other listed =>
            ⟨(offered other (List.mem_cons_of_mem _ listed)).1,
              (offered other (List.mem_cons_of_mem _ listed)).2.run sound (.single step)⟩) (by
            intro other listed flag
            rcases List.mem_append.mp listed with earlier | new
            · exact step.same (applied other earlier flag)
            · rw [List.mem_singleton.mp new, lo, hi]
              simp [UnionFind.find_unionRoots])
        rw [List.foldl_cons, equal]
        refine ⟨?_, next.2⟩
        rw [next.1]
        simp [sameRow]

/-- The bridge pass, where it is made: it unites further, and settles each row. -/
theorem applyBridges_settles {pass : ClusterPass}
    (held : PassHolds grounds links pass) :
    UnionRun grounds links pass.unionFind
        (applyBridges grounds pass.unionFind pass.bridges).1 ∧
      ((applyBridges grounds pass.unionFind pass.bridges).2.map Bridge.row).Perm
        (pass.bridges.map Bridge.row) ∧
      ∀ bridge ∈ (applyBridges grounds pass.unionFind pass.bridges).2, bridge.applied = true →
        (applyBridges grounds pass.unionFind pass.bridges).1.find bridge.lo =
          (applyBridges grounds pass.unionFind pass.bridges).1.find bridge.hi := by
  unfold applyBridges
  split_ifs
  · have offered : ∀ bridge ∈ sortedBy bridgeRank pass.bridges,
        bridge.applied = false ∧ Seen links pass.unionFind bridge.lo bridge.hi :=
      fun bridge listed => held.bridged bridge (mem_sortedBy.mp listed)
    obtain ⟨bridgeRows, applied⟩ := @bridgeFold _ _ _ _ [] held.sound offered
      (fun _ listed => absurd listed List.not_mem_nil)
    refine ⟨bridgeFold_run (_, []) held.sound fun bridge listed => (offered bridge listed).2, ?_, applied⟩
    rw [bridgeRows]
    simpa using (sortedBy_perm bridgeRank pass.bridges).map Bridge.row
  · refine ⟨.refl, .refl _, ?_⟩
    intro bridge listed flag
    rw [(held.bridged bridge listed).1] at flag
    exact Bool.noConfusion flag

/-- Over the bridge pass the refused rows stay apart exactly when no bridge is applied
where a limb of theirs is lifted. -/
theorem parted_bridges_iff {rows : List Conflict} {bridges : List Bridge} :
    ∀ {uf : UnionFind} {settled : List Bridge}, uf.Sound grounds →
      (∀ bridge ∈ bridges, Seen links uf bridge.lo bridge.hi) →
      (∀ row ∈ rows, Refused grounds uf row) → Parted uf rows →
        (Parted (bridges.foldl (bridgeStep grounds) (uf, settled)).1 rows ↔
          BridgesUnlifted grounds rows (uf, settled) bridges) := by
  induction bridges with
  | nil => exact fun _ _ _ parted => iff_of_true parted trivial
  | cons bridge rest ih =>
      intro uf settled sound offered refused parted
      have seen := offered bridge List.mem_cons_self
      have later := fun other listed => offered other (List.mem_cons_of_mem _ listed)
      rw [List.foldl_cons, BridgesUnlifted]
      obtain ⟨row, _, ⟨_, idle, equal⟩ | ⟨offeredAgain, admitted, equal⟩⟩ :=
        bridgeStep_cases grounds uf settled bridge
      · rw [equal, ih sound later refused parted]
        exact (and_iff_right fun again admitted => absurd ⟨again, admitted⟩ idle).symm
      · have step : UnionStep grounds links uf
            (uf.union (uf.find bridge.lo) (uf.find bridge.hi)) :=
          .unite seen.1 seen.2.1 admitted.1 seen.2.2 admitted.2
        have run : UnionRun grounds links uf
            (uf.union (uf.find bridge.lo) (uf.find bridge.hi)) := .single step
        have seenLater := fun other listed => (later other listed).run sound run
        have kept := parted_union_iff sound refused parted admitted
        rw [equal]
        by_cases unlifted : Unlifted grounds rows (uf.merged bridge.lo bridge.hi)
        · rw [ih (step.sound sound) seenLater
            (fun row listed => (refused row listed).run sound run) (kept.mpr unlifted)]
          exact (and_iff_right fun _ _ => unlifted).symm
        · refine iff_of_false (fun ended => unlifted (kept.mp ?_))
            fun holds => unlifted (holds.1 offeredAgain admitted)
          exact ended.of_run (bridgeFold_run (_, _) (step.sound sound) seenLater)

theorem clusterFold_conflicts (grounds : Grounds) (edges : List Decision) (pass : ClusterPass) :
    pass.conflicts ⊆ (edges.foldl (clusterStep grounds) pass).conflicts := by
  induction edges generalizing pass with
  | nil => exact fun _ listed => listed
  | cons decision rest ih =>
      refine fun row listed => ih (clusterStep grounds pass decision) ?_
      rcases clusterStep_cases grounds pass decision with ⟨_, equal⟩ | ⟨_, _, _, _, equal⟩ |
        ⟨_, _, _, _, _, equal⟩ | ⟨_, _, equal⟩ <;> rw [equal]
      · exact listed
      · exact listed
      · exact List.mem_append_left _ listed
      · exact listed

/-- Over the pass and its bridges the refused rows stay apart exactly when no union is
made where a limb of a row refused before it is lifted. -/
theorem parted_pass_iff {edges : List Decision} :
    ∀ {pass : ClusterPass}, PassHolds grounds links pass →
      (∀ decision ∈ edges, Seen links pass.unionFind decision.lo decision.hi) →
      Parted pass.unionFind pass.conflicts →
        (Parted (applyBridges grounds (edges.foldl (clusterStep grounds) pass).unionFind
            (edges.foldl (clusterStep grounds) pass).bridges).1
          (edges.foldl (clusterStep grounds) pass).conflicts ↔ PassUnlifted grounds pass edges) := by
  induction edges with
  | nil =>
      intro pass holds _ parted
      rw [List.foldl_nil, PassUnlifted, applyBridges]
      split_ifs with applies
      · rw [forall_prop_of_true applies]
        exact parted_bridges_iff holds.sound
          (fun bridge listed => (holds.bridged bridge (mem_sortedBy.mp listed)).2)
          holds.refused parted
      · exact iff_of_true parted fun applied => absurd applied applies
  | cons decision rest ih =>
      intro pass holds seen parted
      have here := seen decision List.mem_cons_self
      have next := holds.step here
      have run := clusterStep_run grounds here
      have later : ∀ other ∈ rest,
          Seen links (clusterStep grounds pass decision).unionFind other.lo other.hi :=
        fun other listed => (seen other (List.mem_cons_of_mem _ listed)).run holds.sound run
      rw [List.foldl_cons, PassUnlifted]
      rcases clusterStep_cases grounds pass decision with ⟨same, equal⟩ |
        ⟨bridge, _, _, bridging, equal⟩ | ⟨conflict, row, _, apart, broken, equal⟩ |
        ⟨single, admitted, equal⟩
      · have still : Parted (clusterStep grounds pass decision).unionFind
            (clusterStep grounds pass decision).conflicts := by rw [equal]; exact parted
        rw [ih next later still]
        exact (and_iff_right fun _ admitted => absurd same admitted.1).symm
      · have still : Parted (clusterStep grounds pass decision).unionFind
            (clusterStep grounds pass decision).conflicts := by rw [equal]; exact parted
        rw [ih next later still]
        exact (and_iff_right fun single => absurd bridging single).symm
      · have still : Parted (clusterStep grounds pass decision).unionFind
            (clusterStep grounds pass decision).conflicts := by
          have lo : conflict.lo = decision.lo := congrArg Prod.fst row
          have hi : conflict.hi = decision.hi := congrArg (fun row : EdgeRow => row.2.1) row
          rw [equal]
          refine List.forall_mem_append.mpr ⟨parted, fun other new => ?_⟩
          rw [List.mem_singleton.mp new, lo, hi]
          exact apart
        rw [ih next later still]
        exact (and_iff_right fun _ admitted => absurd admitted.2 broken).symm
      · have kept := parted_union_iff holds.sound holds.refused parted admitted
        by_cases unlifted : Unlifted grounds pass.conflicts
            (pass.unionFind.merged decision.lo decision.hi)
        · have still : Parted (clusterStep grounds pass decision).unionFind
              (clusterStep grounds pass decision).conflicts := by
            rw [equal]
            exact kept.mpr unlifted
          rw [ih next later still]
          exact (and_iff_right fun _ _ => unlifted).symm
        · refine iff_of_false (fun ended => unlifted (kept.mp ?_))
            fun holds => unlifted (holds.1 single admitted)
          obtain ⟨held, passRun, _⟩ := clusterFold next later
          have endRun := passRun.trans (applyBridges_settles held).1
          rw [equal] at ended endRun
          have kept_ := clusterFold_conflicts grounds rest { pass with
            unionFind := pass.unionFind.union (pass.unionFind.find decision.lo)
              (pass.unionFind.find decision.hi) }
          have final : Parted _ pass.conflicts := fun row listed => ended row (kept_ listed)
          exact final.of_run endRun

end Steps

end Sreality.Autodedup
