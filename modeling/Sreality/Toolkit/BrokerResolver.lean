import Mathlib.Data.Finset.Card
import Mathlib.Data.Prod.Lex
import Mathlib.Data.String.Basic
import Sreality.Foundation.DisjointSets

/-! `decide_merges` (toolkit/broker_resolver.py): the identities of a corpus snapshot are joined by
the contacts, the rarity and the firms of their names, and each component is merged or held for
the operator. -/

set_option autoImplicit false

namespace Sreality.Toolkit.BrokerResolver

open Sreality.Foundation

/-! ### Names -/

/-- `unicodedata` and the methods of `str` that consult it. -/
structure Unicode where
  nfkd : List Char → List Char
  combining : Char → Bool
  lower : List Char → List Char
  isalnum : Char → Bool
  isspace : Char → Bool

/-- `_TITLE_TOKENS`. -/
def titleTokens : List String :=
  ["bc", "bca", "ing", "arch", "mgr", "mga", "judr", "mudr", "mddr", "mvdr",
    "phdr", "rndr", "pharmdr", "thlic", "thdr", "paeddr", "dr", "phd", "csc",
    "drsc", "dis", "mba", "llm", "msc", "prof", "doc"]

/-- `ROLE_EMAIL_LOCALPARTS`. -/
def roleEmailLocalparts : List String :=
  ["info", "kontakt", "kancelar", "office", "recepce", "sekretariat",
    "reality", "rk", "makler", "makleri", "obchod", "podpora", "servis",
    "prodej", "prodeje", "pronajem", "pronajmy", "najem", "najmy",
    "byty", "domy", "pozemky", "garaze", "komerce", "komercni",
    "zakaznicka", "linka", "zakaznickalinka"]

def roleEmail (value : String) : Bool :=
  decide (String.ofList (value.toList.takeWhile fun letter => letter != '@') ∈
    roleEmailLocalparts)

section Names

variable (unicode : Unicode)

/-- `str.split()`. -/
def split (letters : List Char) : List (List Char) :=
  (letters.splitOnP unicode.isspace).filter fun word => !word.isEmpty

def identityTokens (name : String) : List String :=
  let folded := unicode.lower
    ((unicode.nfkd name.toList).filter fun letter => !unicode.combining letter)
  let spaced := folded.map fun letter => if letter = ',' ∨ letter = ';' then ' ' else letter
  (split unicode spaced).flatMap fun chunk =>
    if String.ofList (chunk.filter unicode.isalnum) ∈ titleTokens then []
    else
      ((split unicode (chunk.map fun letter =>
          if unicode.isalnum letter then letter else ' ')).map String.ofList).filter
        fun token => decide (token ∉ titleTokens)

/-- The key of a name is never empty. -/
def nameKey (name : Option String) : Option String :=
  match name with
  | none => none
  | some name =>
      let key := " ".intercalate (sortedIds (identityTokens unicode name))
      if name = "" ∨ key = "" then none else some key

end Names

/-! ### The corpus -/

structure Identity where
  id : Nat
  name : Option String
  firmId : Option Nat
  mergeable : Bool
  primaryFirmId : Option Nat
  deriving DecidableEq

inductive ContactKind where
  | email
  | phone
  deriving DecidableEq

structure Contact where
  identityId : Nat
  kind : ContactKind
  value : String
  deriving DecidableEq

abbrev ContactValue := ContactKind × String

structure Corpus where
  identities : List Identity
  contacts : List Contact

namespace Corpus

variable (corpus : Corpus)

/-- `by_id`: a later identity replaces an earlier one. -/
def byId (id : Nat) : Option Identity :=
  (corpus.identities.filter fun identity => identity.id == id).getLast?

def mergeableId (id : Nat) : Bool :=
  (corpus.byId id).any Identity.mergeable

def primaryFirm (id : Nat) : Option Nat :=
  (corpus.byId id).bind Identity.primaryFirmId

/-- The contacts of the identities given. -/
def known : List Contact :=
  corpus.contacts.filter fun contact => (corpus.byId contact.identityId).isSome

/-- The values in the order of their first contacts. -/
def values : List ContactValue :=
  (corpus.known.map fun contact => (contact.kind, contact.value)).eraseDups

def carrying (value : ContactValue) : List Contact :=
  corpus.known.filter fun contact => (contact.kind, contact.value) == value

def carriers (value : ContactValue) : Finset Nat :=
  ((corpus.carrying value).map Contact.identityId).toFinset

def emailsOf (id : Nat) : List String :=
  (corpus.known.filter fun contact =>
    contact.identityId == id && contact.kind == .email).map Contact.value

variable (unicode : Unicode)

def keyOf (id : Nat) : Option String :=
  (corpus.byId id).bind fun identity => nameKey unicode identity.name

def namesAt (value : ContactValue) : Finset String :=
  ((corpus.carrying value).filterMap fun contact => corpus.keyOf unicode contact.identityId).toFinset

def firmsOfName (key : String) : Finset Nat :=
  ((corpus.identities.filter fun identity =>
    corpus.keyOf unicode identity.id == some key).filterMap Identity.firmId).toFinset

/-! ### What tells two identities apart -/

/-- A mailbox named after a desk, or the phone of an identity with no other mailboxes. -/
def desk (holder : Nat) (value : ContactValue) : Bool :=
  match value.1 with
  | .email => roleEmail value.2
  | .phone => !(corpus.emailsOf holder).isEmpty && (corpus.emailsOf holder).all roleEmail

/-- The personal values of a holder that one name carries. -/
def discriminating (holder : Nat) (kind : ContactKind) : Finset String :=
  ((corpus.values.filter fun value => value.1 == kind &&
    decide ((corpus.namesAt unicode value).card = 1 ∧ holder ∈ corpus.carriers value) &&
      !corpus.desk holder value).map Prod.snd).toFinset

/-- `set.intersection`. -/
def common : List (Finset String) → Finset String
  | [] => ∅
  | first :: rest => rest.foldl (· ∩ ·) first

def contradicted (members : List Nat) : Bool :=
  [ContactKind.email, ContactKind.phone].any fun kind =>
    let sets := (members.map fun member => corpus.discriminating unicode member kind).filter
      fun values => decide (values ≠ ∅)
    decide (1 < sets.length ∧ common sets = ∅)

/-! ### Edges -/

/-- The carriers of a value that can be merged and have the name. -/
def bearers (value : ContactValue) (key : String) : List Nat :=
  (ascending (corpus.carriers value)).filter fun id =>
    corpus.keyOf unicode id == some key && corpus.mergeableId id

/-- `a_edges`, with the value that stamps each. -/
def aEdges : List ((Nat × Nat) × ContactValue) :=
  corpus.values.flatMap fun value =>
    match ascending (corpus.namesAt unicode value) with
    | [only] => (chain (corpus.bearers unicode value only)).map fun edge => (edge, value)
    | _ => []

def stamped (edge : Nat × Nat) : Finset ContactValue :=
  (((corpus.aEdges unicode).filter fun row => row.1 == edge).map Prod.snd).toFinset

/-- The names of the identities that can be merged, in their order. -/
def mergeableKeys : List String :=
  ((corpus.identities.filter Identity.mergeable).filterMap fun identity =>
    corpus.keyOf unicode identity.id).eraseDups

/-- `by_key`. -/
def byKey (key : String) : Finset Nat :=
  ((corpus.identities.filter fun identity =>
    identity.mergeable && corpus.keyOf unicode identity.id == some key).map
      Identity.id).toFinset

/-- The chain of a cohort that is not contradicted. -/
def cohortEdges (members : List Nat) : List (Nat × Nat) :=
  if members.length < 2 ∨ corpus.contradicted unicode members = true then [] else chain members

def rEdges : List (Nat × Nat) :=
  (corpus.mergeableKeys unicode).flatMap fun key =>
    if 1 < (corpus.firmsOfName unicode key).card then []
    else corpus.cohortEdges unicode (ascending (corpus.byKey unicode key))

/-- The names and firms of the identities that can be merged, in their order. -/
def firmKeys : List (String × Nat) :=
  ((corpus.identities.filter Identity.mergeable).filterMap fun identity =>
    (corpus.keyOf unicode identity.id).bind fun key =>
      identity.firmId.map fun firm => (key, firm)).eraseDups

/-- `at_firm`. -/
def atFirm (cohort : String × Nat) : Finset Nat :=
  ((corpus.identities.filter fun identity => identity.mergeable &&
    corpus.keyOf unicode identity.id == some cohort.1 && identity.firmId == some cohort.2).map
      Identity.id).toFinset

def fEdges : List (Nat × Nat) :=
  (corpus.firmKeys unicode).flatMap fun cohort =>
    corpus.cohortEdges unicode (ascending (corpus.atFirm unicode cohort))

def allEdges : List (Nat × Nat) :=
  sortedBy toLex (((corpus.aEdges unicode).map Prod.fst ++ corpus.fEdges unicode ++
    corpus.rEdges unicode).dedup)

end Corpus

/-! ### Components -/

def maxAutoMergeComponent : Nat := 20

def reasonContactName : String := "contact_name"

def reasonNameFirm : String := "name_firm"

def reasonNameRarity : String := "name_rarity"

/-- Why a pair waits for the operator. -/
inductive Hold where
  | multiFirm (firms : List Nat)
  | contradicted (values : List String)
  | oversized
  | suppressed
  deriving DecidableEq

structure MergeDecision where
  autoMergeGroups : List (List Nat)
  reviewPairs : List (Nat × Nat)
  suppressed : List (Nat × Nat)
  dismissPairs : List (Nat × Nat)
  groupBridges : List (List Nat × ContactValue)
  groupReasons : List (List Nat × String)
  pairHolds : Nat × Nat → Option Hold

/-- `_pairs`. -/
def pairs : List Nat → List (Nat × Nat)
  | [] => []
  | first :: rest => rest.map (fun other => (first, other)) ++ pairs rest

/-- The nodes of the edges. -/
def nodes (edges : List (Nat × Nat)) : List Nat :=
  (edges.flatMap fun edge => [edge.1, edge.2]).dedup

/-- `_union_find`: the larger root is hung under the smaller, so a root is the least of its
component. The compression of paths moves no root. -/
def rootOf (edges : List (Nat × Nat)) : Nat → Nat :=
  (Forest.singletons.linkAll edges).find

/-- `sorted(components.items())`, the members sorted too. -/
def componentsOf (edges : List (Nat × Nat)) : List (Nat × List Nat) :=
  sortedGroups (rootOf edges) (nodes edges)

/-- A standing no inside the component: one that holds no blocked node holds no blocked pair. -/
def touched (blocked : Finset (Nat × Nat)) (group : List Nat) : Bool :=
  decide (∃ pair ∈ blocked, pair.1 ∈ group ∧ pair.2 ∈ group)

def held (blocked : Finset (Nat × Nat)) (group : List Nat) : Bool :=
  touched blocked group || decide (maxAutoMergeComponent < group.length)

def normalized (pair : Nat × Nat) : Nat × Nat :=
  if pair.1 < pair.2 then pair else (pair.2, pair.1)

section Decision

variable (unicode : Unicode) (corpus : Corpus) (blocked : Finset (Nat × Nat))

/-- `edges`. -/
def unblocked : List (Nat × Nat) :=
  (corpus.allEdges unicode).filter fun edge => decide (edge ∉ blocked)

def edgesByRoot (root : Nat) : List (Nat × Nat) :=
  (unblocked unicode corpus blocked).filter fun edge =>
    rootOf (corpus.allEdges unicode) edge.1 == root

def components : List (Nat × List Nat) :=
  (componentsOf (corpus.allEdges unicode)).filter fun component =>
    decide (2 ≤ component.2.length)

def merged : List (Nat × List Nat) :=
  (components unicode corpus).filter fun component => !held blocked component.2

/-- What a held component asks. -/
def downgraded (component : Nat × List Nat) : List ((Nat × Nat) × Hold) :=
  let code := if touched blocked component.2 then Hold.suppressed else Hold.oversized
  (if component.2.length ≤ maxAutoMergeComponent then pairs component.2
    else edgesByRoot unicode corpus blocked component.1).map fun pair => (pair, code)

def downgrades : List ((Nat × Nat) × Hold) :=
  ((components unicode corpus).filter fun component => held blocked component.2).flatMap
    (downgraded unicode corpus blocked)

/-- `merged_root`. -/
def mergedRoot (id : Nat) : Option Nat :=
  ((merged unicode corpus blocked).find? fun component => decide (id ∈ component.2)).map Prod.fst

def groupReason (component : Nat × List Nat) : String :=
  let inner := edgesByRoot unicode corpus blocked component.1
  "+".intercalate (
    (if inner.any fun edge => decide (edge ∈ (corpus.aEdges unicode).map Prod.fst) then
      [reasonContactName] else []) ++
    (if inner.any fun edge => decide (edge ∈ corpus.fEdges unicode) then
      [reasonNameFirm] else []) ++
    (if inner.any fun edge => decide (edge ∈ corpus.rEdges unicode) then
      [reasonNameRarity] else []))

/-- The one value of the one edge: a kind holds no colon, so the stamp parts as it was put
together. -/
def groupBridge (component : Nat × List Nat) : Option ContactValue :=
  match edgesByRoot unicode corpus blocked component.1 with
  | [edge] =>
      if (corpus.stamped unicode edge).card = 1 then
        (corpus.values.find? fun value => decide (value ∈ corpus.stamped unicode edge))
      else none
  | _ => none

/-! ### The residue -/

/-- The operator has no other card for the pair, and it was not merged. -/
def asked (pair : Nat × Nat) : Bool :=
  !((corpus.primaryFirm pair.1).isSome &&
      corpus.primaryFirm pair.1 == corpus.primaryFirm pair.2) &&
    !((mergedRoot unicode corpus blocked pair.1).isSome &&
      mergedRoot unicode corpus blocked pair.1 == mergedRoot unicode corpus blocked pair.2)

def holdOf (pair : Nat × Nat) : Hold :=
  let spread := corpus.firmsOfName unicode ((corpus.keyOf unicode pair.1).getD "")
  if 1 < spread.card then .multiFirm (ascending spread)
  else .contradicted (sortedIds ([pair.1, pair.2].flatMap fun member =>
    [ContactKind.email, ContactKind.phone].flatMap fun kind =>
      ascending (corpus.discriminating unicode member kind)))

/-- The names under which the value's carriers can be merged. -/
def namesHeld (value : ContactValue) : List String :=
  (((ascending (corpus.carriers value)).filter corpus.mergeableId).filterMap
    (corpus.keyOf unicode)).eraseDups

def residueOf (value : ContactValue) : List ((Nat × Nat) × Hold) :=
  if (corpus.namesAt unicode value).card < 2 then []
  else
    (((namesHeld unicode corpus value).flatMap fun key =>
        pairs (corpus.bearers unicode value key)).filter (asked unicode corpus blocked)).map
      fun pair => (pair, holdOf unicode corpus pair)

def residue : List ((Nat × Nat) × Hold) :=
  corpus.values.flatMap (residueOf unicode corpus blocked)

/-- `decision.review_pairs` and `decision.pair_holds` before the blocked pairs are taken out. -/
def reviewRows : List ((Nat × Nat) × Hold) :=
  downgrades unicode corpus blocked ++ residue unicode corpus blocked

def review : List (Nat × Nat) :=
  ((reviewRows unicode corpus blocked).map fun row => normalized row.1).dedup

def decideMerges : MergeDecision where
  autoMergeGroups := (merged unicode corpus blocked).map Prod.snd
  reviewPairs := sortedBy toLex
    ((review unicode corpus blocked).filter fun pair => decide (pair ∉ blocked))
  suppressed := sortedBy toLex
    ((corpus.allEdges unicode).filter (fun edge => decide (edge ∈ blocked)) ++
      (review unicode corpus blocked).filter fun pair => decide (pair ∈ blocked)).dedup
  dismissPairs := []
  groupBridges := (merged unicode corpus blocked).filterMap fun component =>
    (groupBridge unicode corpus blocked component).map fun bridge => (component.2, bridge)
  groupReasons := (merged unicode corpus blocked).map fun component =>
    (component.2, groupReason unicode corpus blocked component)
  pairHolds := fun pair => (reviewRows unicode corpus blocked).lookup pair

end Decision

end Sreality.Toolkit.BrokerResolver
