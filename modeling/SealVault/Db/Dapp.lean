import SealVault.Rust
import SealVault.Utf8
import SealVault.Db.Entity

/-! `dapps`. A dapp is named by the registrable domain of its URL's origin, or by the
origin itself when the public suffix list knows no such domain; its id is derived from that
identifier alone, and `create_if_not_exists` inserts the row ignoring a conflict.

What the table is for is `register`: one row per identifier, the first request for an
identifier making its row. The table itself is keyed by the derived id; when the
derivation is injective and every row's id is the derivation of its identifier, keying by
id and keying by identifier agree (`insertOnConflictDoNothing_eq_register`), so any run of
`create_if_not_exists` calls, in any order, is a run of `register`. A run converges
(`runCreates_converges`), and calls for URLs already created change nothing
(`runCreates_idempotent`). -/
namespace SealVault.Db
open SealVault.Rust SealVault.Utf8

/-- `url::Url::origin`. -/
class UrlOrigin (Url : Type) (Origin : outParam Type) where
  origin : Url → Origin

/-- `url::Origin::ascii_serialization`. -/
class AsciiSerialization (Origin : Type) where
  asciiSerialization : Origin → String

/-- `PublicSuffixList`, which the code asks for the registrable domain of an origin. -/
structure PublicSuffixList (Origin : Type) where
  registrableDomain : Origin → Except Error (Option String)

/-- Modelled from the usage: the value of the `url` column, made from a `Url` by `into`. -/
structure UrlValue (Url : Type) where
  url : Url
  deriving DecidableEq

instance {Url : Type} : From Url (UrlValue Url) := ⟨UrlValue.mk⟩

structure Dapp (DeterministicId Url : Type) where
  deterministicId : DeterministicId
  identifier : String
  url : UrlValue Url
  createdAt : String
  updatedAt : Option String
  deriving DecidableEq

/-- The `dapps` table, keyed by `deterministic_id`. -/
abbrev DappsTable (DeterministicId Url : Type) :=
  Table (Dapp DeterministicId Url) DeterministicId Dapp.deterministicId

structure DappEntity (Url : Type) where
  identifier : String
  url : UrlValue Url

instance {Url : Type} : DeriveDeterministicId (DappEntity Url) where
  entityName _ := .dapp
  uniqueColumns self := [asBytes self.identifier]

section
variable {Url Origin DeterministicId : Type} [UrlOrigin Url Origin] [AsciiSerialization Origin]
  [DecidableEq DeterministicId]
  (derive : EntityName → List (List UInt8) → DeterministicId)

def DappEntity.new (url : Url) (publicSuffixList : PublicSuffixList Origin) :
    Except Error (DappEntity Url) := do
  let origin := UrlOrigin.origin url
  let registrableDomain ← publicSuffixList.registrableDomain origin
  let identifier := registrableDomain.getD (AsciiSerialization.asciiSerialization origin)
  pure { identifier, url := From.convert url }

/-- Get the human-readable dapp identifier from an url. -/
def Dapp.dappIdentifier (url : Url) (publicSuffixList : PublicSuffixList Origin) :
    Except Error String := do
  let dappEntity ← DappEntity.new url publicSuffixList
  pure dappEntity.identifier

/-- Create a dapp entity and return its deterministic id. The operation is idempotent.
`createdAt` is `rfc3339_timestamp()` when the call runs; `updated_at` is not written. -/
def DappEntity.createIfNotExists (self : DappEntity Url) (createdAt : String)
    (conn : DappsTable DeterministicId Url) : DeterministicId × DappsTable DeterministicId Url :=
  let deterministicId := deterministicId derive self
  let conn := conn.insertOnConflictDoNothing
    { identifier := self.identifier, url := self.url, deterministicId, createdAt,
      updatedAt := none }
  (deterministicId, conn)

/-- Create a dapp entity and return its deterministic id. The operation is idempotent. -/
def Dapp.createIfNotExists (url : Url) (publicSuffixList : PublicSuffixList Origin)
    (createdAt : String) (txConn : DappsTable DeterministicId Url) :
    Except Error (DeterministicId × DappsTable DeterministicId Url) := do
  let dappEntity ← DappEntity.new url publicSuffixList
  pure (dappEntity.createIfNotExists derive createdAt txConn)

/-- Get the human-readable dapp identifier for a dapp id. -/
def Dapp.fetchDappIdentifier [From DbError Error] (conn : DappsTable DeterministicId Url)
    (dappId : DeterministicId) : Except Error String := do
  let identifier ← ((conn.first dappId).map Dapp.identifier).mapError From.convert
  pure identifier

/-- The database running `create_if_not_exists` calls one transaction after another; a call
is a URL and the time it runs. A failed call leaves the table as it was. -/
def createStep (publicSuffixList : PublicSuffixList Origin) (call : Url × String)
    (conn : DappsTable DeterministicId Url) :
    Except Error DeterministicId × DappsTable DeterministicId Url :=
  match Dapp.createIfNotExists derive call.1 publicSuffixList call.2 conn with
  | .ok (dappId, conn) => (.ok dappId, conn)
  | .error e => (.error e, conn)

def runCreates (publicSuffixList : PublicSuffixList Origin) :
    List (Url × String) → DappsTable DeterministicId Url →
      List (Except Error DeterministicId) × DappsTable DeterministicId Url
  | [], conn => ([], conn)
  | call :: calls, conn =>
    let step := createStep derive publicSuffixList call conn
    let run := runCreates publicSuffixList calls step.2
    (step.1 :: run.1, run.2)

end

/-! ### What the table is for -/

section
variable {Url DeterministicId : Type}

/-- One row per identifier: a request for an identifier already there changes nothing. -/
def register (rows : List (Dapp DeterministicId Url)) (row : Dapp DeterministicId Url) :
    List (Dapp DeterministicId Url) :=
  if row.identifier ∈ rows.map Dapp.identifier then rows else rows ++ [row]

theorem mem_identifiers_register (rows : List (Dapp DeterministicId Url)) (row i) :
    i ∈ (register rows row).map Dapp.identifier ↔
      i ∈ rows.map Dapp.identifier ∨ row.identifier = i := by
  unfold register
  split
  · next h => exact ⟨.inl, fun h' => h'.elim id (· ▸ h)⟩
  · simp [eq_comm]

theorem nodup_identifiers_register {rows : List (Dapp DeterministicId Url)}
    (h : (rows.map Dapp.identifier).Nodup) (row) :
    ((register rows row).map Dapp.identifier).Nodup := by
  unfold register
  split
  · exact h
  · next hr =>
    rw [List.map_append]
    exact h.append (List.nodup_singleton _) (List.disjoint_singleton.2 hr)

theorem mem_register {rows : List (Dapp DeterministicId Url)} {row r}
    (h : r ∈ register rows row) : r ∈ rows ∨ r = row := by
  unfold register at h
  split at h
  · exact .inl h
  · simpa using h

theorem mem_foldl_register {rows reqs : List (Dapp DeterministicId Url)} {r}
    (h : r ∈ reqs.foldl register rows) : r ∈ rows ∨ r ∈ reqs := by
  induction reqs generalizing rows with
  | nil => exact .inl h
  | cons row reqs ih =>
    rcases ih h with h | h
    · rcases mem_register h with h | rfl
      exacts [.inl h, .inr (List.mem_cons_self _ _)]
    · exact .inr (List.mem_cons_of_mem _ h)

theorem mem_identifiers_foldl_register (rows reqs : List (Dapp DeterministicId Url)) (i) :
    i ∈ (reqs.foldl register rows).map Dapp.identifier ↔
      i ∈ rows.map Dapp.identifier ∨ ∃ r ∈ reqs, r.identifier = i := by
  induction reqs generalizing rows with
  | nil => simp
  | cons row reqs ih =>
    rw [List.foldl_cons, ih, mem_identifiers_register]
    simp only [List.mem_cons, exists_eq_or_imp, or_assoc]

theorem nodup_identifiers_foldl_register {rows : List (Dapp DeterministicId Url)}
    (h : (rows.map Dapp.identifier).Nodup) (reqs : List (Dapp DeterministicId Url)) :
    ((reqs.foldl register rows).map Dapp.identifier).Nodup := by
  induction reqs generalizing rows with
  | nil => exact h
  | cons row reqs ih => exact ih (nodup_identifiers_register h row)

/-- Requests for identifiers already registered change nothing. -/
theorem foldl_register_of_mem {rows reqs : List (Dapp DeterministicId Url)}
    (h : ∀ r ∈ reqs, r.identifier ∈ rows.map Dapp.identifier) :
    reqs.foldl register rows = rows := by
  induction reqs with
  | nil => rfl
  | cons row reqs ih =>
    rw [List.foldl_cons, register, if_pos (h row (List.mem_cons_self _ _))]
    exact ih fun r hr => h r (List.mem_cons_of_mem _ hr)

/-- The identifiers registered do not depend on the order of the requests. -/
theorem identifiers_foldl_register_perm {rows : List (Dapp DeterministicId Url)}
    (h : (rows.map Dapp.identifier).Nodup) {reqs reqs' : List (Dapp DeterministicId Url)}
    (hp : reqs.Perm reqs') :
    ((reqs.foldl register rows).map Dapp.identifier).Perm
      ((reqs'.foldl register rows).map Dapp.identifier) := by
  refine (List.perm_ext_iff_of_nodup (nodup_identifiers_foldl_register h _)
    (nodup_identifiers_foldl_register h _)).2 fun i => ?_
  simp only [mem_identifiers_foldl_register, hp.mem_iff]

end

/-! ### The table refines the registry -/

section
variable {Url Origin DeterministicId : Type} [UrlOrigin Url Origin] [AsciiSerialization Origin]
  (derive : EntityName → List (List UInt8) → DeterministicId)

/-- Every row's key is the derivation of its identifier. -/
def Keyed (rows : List (Dapp DeterministicId Url)) : Prop :=
  ∀ r ∈ rows, r.deterministicId = derive .dapp [asBytes r.identifier]

/-- The row a call asks for, when its URL has an identifier. -/
def request (publicSuffixList : PublicSuffixList Origin) (call : Url × String) :
    Option (Dapp DeterministicId Url) :=
  match DappEntity.new call.1 publicSuffixList with
  | .ok e => some
    { identifier := e.identifier, url := e.url,
      deterministicId := derive .dapp [asBytes e.identifier], createdAt := call.2,
      updatedAt := none }
  | .error _ => none

variable {derive}

theorem key_mem_iff (hinj : Function.Injective (derive .dapp))
    {rows : List (Dapp DeterministicId Url)} (hrows : Keyed derive rows)
    {row : Dapp DeterministicId Url}
    (hrow : Keyed derive [row]) :
    row.deterministicId ∈ rows.map Dapp.deterministicId ↔
      row.identifier ∈ rows.map Dapp.identifier := by
  have hrow := hrow row (List.mem_singleton_self _)
  simp only [List.mem_map]
  refine exists_congr fun r => and_congr_right fun hr => ?_
  rw [hrows r hr, hrow]
  exact ⟨fun h => asBytes_inj (List.singleton_inj.1 (hinj h)), fun h => by rw [h]⟩

theorem insertOnConflictDoNothing_eq_register [DecidableEq DeterministicId]
    (hinj : Function.Injective (derive .dapp))
    {t : DappsTable DeterministicId Url} (ht : Keyed derive t.rows)
    {row : Dapp DeterministicId Url}
    (hrow : Keyed derive [row]) :
    (t.insertOnConflictDoNothing row).rows = register t.rows row := by
  rw [Table.insertOnConflictDoNothing_rows, register]
  exact if_congr (key_mem_iff hinj ht hrow) rfl rfl

theorem keyed_foldl_register {rows reqs : List (Dapp DeterministicId Url)}
    (h : Keyed derive rows) (hreqs : Keyed derive reqs) : Keyed derive (reqs.foldl register rows) :=
  fun r hr => (mem_foldl_register hr).elim (h r) (hreqs r)

/-- Keys are distinct, so identifiers are. -/
theorem keyed_identifiers_nodup {t : DappsTable DeterministicId Url} (ht : Keyed derive t.rows) :
    (t.rows.map Dapp.identifier).Nodup := by
  have : t.rows.map Dapp.deterministicId =
      (t.rows.map Dapp.identifier).map fun i => derive .dapp [asBytes i] := by
    rw [List.map_map]; exact List.map_congr_left ht
  exact (this ▸ t.nodup).of_map _

theorem pairs_eq {rows : List (Dapp DeterministicId Url)} (h : Keyed derive rows) :
    rows.map (fun r => (r.deterministicId, r.identifier)) =
      (rows.map Dapp.identifier).map fun i => (derive .dapp [asBytes i], i) := by
  rw [List.map_map]
  exact List.map_congr_left fun r hr => by rw [h r hr]; rfl

theorem request_keyed {publicSuffixList : PublicSuffixList Origin} {call : Url × String}
    {row : Dapp DeterministicId Url}
    (h : request derive publicSuffixList call = some row) : Keyed derive [row] := by
  unfold request at h
  split at h <;> cases h
  simp [Keyed]

theorem exists_request_iff (publicSuffixList : PublicSuffixList Origin) (call : Url × String)
    (i : String) :
    (∃ row, request derive publicSuffixList call = some row ∧ row.identifier = i) ↔
      Dapp.dappIdentifier call.1 publicSuffixList = .ok i := by
  unfold request Dapp.dappIdentifier
  cases DappEntity.new call.1 publicSuffixList <;> simp [bind, Except.bind, pure, Except.pure]

theorem createStep_fst [DecidableEq DeterministicId]
    (publicSuffixList : PublicSuffixList Origin) (call : Url × String)
    (t : DappsTable DeterministicId Url) :
    (createStep derive publicSuffixList call t).1 =
      (Dapp.dappIdentifier call.1 publicSuffixList).map fun i => derive .dapp [asBytes i] := by
  unfold createStep Dapp.createIfNotExists Dapp.dappIdentifier
  cases DappEntity.new call.1 publicSuffixList <;> rfl

theorem createStep_snd [DecidableEq DeterministicId]
    (publicSuffixList : PublicSuffixList Origin) (call : Url × String)
    (t : DappsTable DeterministicId Url) :
    (createStep derive publicSuffixList call t).2 =
      match request derive publicSuffixList call with
      | some row => t.insertOnConflictDoNothing row
      | none => t := by
  unfold createStep Dapp.createIfNotExists request
  cases DappEntity.new call.1 publicSuffixList <;> rfl

/-- One call: the table grows by the registry's step. -/
theorem createStep_rows [DecidableEq DeterministicId]
    (hinj : Function.Injective (derive .dapp))
    (publicSuffixList : PublicSuffixList Origin) (call : Url × String)
    {t : DappsTable DeterministicId Url} (ht : Keyed derive t.rows) :
    (createStep derive publicSuffixList call t).2.rows =
      (request derive publicSuffixList call).toList.foldl register t.rows := by
  rw [createStep_snd]
  cases h : request derive publicSuffixList call with
  | none => rfl
  | some row => exact insertOnConflictDoNothing_eq_register hinj ht (request_keyed h)

/-- A whole run: the table is the registry fed the requests of the calls, in order. -/
theorem runCreates_rows [DecidableEq DeterministicId]
    (hinj : Function.Injective (derive .dapp))
    (publicSuffixList : PublicSuffixList Origin) (calls : List (Url × String))
    {t : DappsTable DeterministicId Url} (ht : Keyed derive t.rows) :
    (runCreates derive publicSuffixList calls t).2.rows =
      (calls.filterMap (request derive publicSuffixList)).foldl register t.rows := by
  induction calls generalizing t with
  | nil => rfl
  | cons call calls ih =>
    have hstep := createStep_rows hinj publicSuffixList call ht
    have hreq : Keyed derive (request derive publicSuffixList call).toList := by
      cases h : request derive publicSuffixList call
      exacts [nofun, request_keyed h]
    rw [runCreates, ih (hstep ▸ keyed_foldl_register ht hreq), hstep, List.filterMap_cons]
    cases request derive publicSuffixList call <;> rfl

theorem runCreates_results [DecidableEq DeterministicId]
    (publicSuffixList : PublicSuffixList Origin)
    (calls : List (Url × String)) (t : DappsTable DeterministicId Url) :
    (runCreates derive publicSuffixList calls t).1 = calls.map fun call =>
      (Dapp.dappIdentifier call.1 publicSuffixList).map fun i => derive .dapp [asBytes i] := by
  induction calls generalizing t with
  | nil => rfl
  | cons call calls ih => simp only [runCreates, List.map_cons, ih, createStep_fst]

theorem runCreates_append [DecidableEq DeterministicId]
    (publicSuffixList : PublicSuffixList Origin)
    (xs ys : List (Url × String)) (t : DappsTable DeterministicId Url) :
    (runCreates derive publicSuffixList (xs ++ ys) t).2 =
      (runCreates derive publicSuffixList ys (runCreates derive publicSuffixList xs t).2).2 := by
  induction xs generalizing t with
  | nil => rfl
  | cons call xs ih => exact ih _

theorem rows_prefix_runCreates [DecidableEq DeterministicId]
    (publicSuffixList : PublicSuffixList Origin)
    (calls : List (Url × String)) (t : DappsTable DeterministicId Url) :
    t.rows <+: (runCreates derive publicSuffixList calls t).2.rows := by
  induction calls generalizing t with
  | nil => exact List.prefix_refl _
  | cons call calls ih =>
    refine List.IsPrefix.trans ?_ (ih _)
    rw [createStep_snd]
    split
    exacts [t.rows_prefix_insertOnConflictDoNothing _, List.prefix_refl _]

theorem exists_mem_requests_iff (publicSuffixList : PublicSuffixList Origin)
    (calls : List (Url × String)) (i : String) :
    (∃ r ∈ calls.filterMap (request derive publicSuffixList), r.identifier = i) ↔
      ∃ call ∈ calls, Dapp.dappIdentifier call.1 publicSuffixList = .ok i := by
  constructor
  · rintro ⟨r, hr, rfl⟩
    obtain ⟨call, hc, hcr⟩ := List.mem_filterMap.1 hr
    exact ⟨call, hc, (exists_request_iff publicSuffixList call _).1 ⟨r, hcr, rfl⟩⟩
  · rintro ⟨call, hc, hi⟩
    obtain ⟨r, hr, hri⟩ : ∃ r, request derive publicSuffixList call = some r ∧ r.identifier = i :=
      (exists_request_iff publicSuffixList call _).2 hi
    exact ⟨r, List.mem_filterMap.2 ⟨call, hc, hr⟩, hri⟩

theorem keyed_requests (publicSuffixList : PublicSuffixList Origin) (calls : List (Url × String)) :
    Keyed derive (calls.filterMap (request derive publicSuffixList)) := fun r hr => by
  obtain ⟨_, -, hc⟩ := List.mem_filterMap.1 hr
  exact request_keyed hc r (List.mem_singleton_self _)

theorem dappIdentifier_eq_ok {publicSuffixList : PublicSuffixList Origin}
    (hpsl : ∀ origin, ∃ domain, publicSuffixList.registrableDomain origin = .ok domain)
    (url : Url) : ∃ i, Dapp.dappIdentifier url publicSuffixList = .ok i := by
  obtain ⟨domain, hd⟩ := hpsl (UrlOrigin.origin url)
  exact ⟨_, by simp [Dapp.dappIdentifier, DappEntity.new, hd]; rfl⟩

variable (derive) in
/-- What a run of `create_if_not_exists` calls from table `t` guarantees. -/
structure Converges [DecidableEq DeterministicId] (publicSuffixList : PublicSuffixList Origin)
    (calls : List (Url × String)) (t : DappsTable DeterministicId Url) : Prop where
  /-- Each call returns the derivation of its URL's identifier. -/
  results : (runCreates derive publicSuffixList calls t).1 = calls.map fun call =>
    (Dapp.dappIdentifier call.1 publicSuffixList).map fun i => derive .dapp [asBytes i]
  ok : ∀ result ∈ (runCreates derive publicSuffixList calls t).1, ∃ dappId, result = .ok dappId
  /-- The table is the registry fed the calls' requests in order. -/
  rows : (runCreates derive publicSuffixList calls t).2.rows =
    (calls.filterMap (request derive publicSuffixList)).foldl register t.rows
  identifiers_nodup :
    ((runCreates derive publicSuffixList calls t).2.rows.map Dapp.identifier).Nodup
  mem_identifiers : ∀ i,
    i ∈ (runCreates derive publicSuffixList calls t).2.rows.map Dapp.identifier ↔
    i ∈ t.rows.map Dapp.identifier ∨
      ∃ call ∈ calls, Dapp.dappIdentifier call.1 publicSuffixList = .ok i
  keyed : Keyed derive (runCreates derive publicSuffixList calls t).2.rows
  /-- A row, once there, stays as it is. -/
  rows_prefix : ∀ xs ys, calls = xs ++ ys →
    (runCreates derive publicSuffixList xs t).2.rows <+:
      (runCreates derive publicSuffixList calls t).2.rows
  /-- The stored ids and identifiers do not depend on the order of the calls. -/
  pairs_perm : ∀ calls', calls'.Perm calls →
    ((runCreates derive publicSuffixList calls' t).2.rows.map
        fun r => (r.deterministicId, r.identifier)).Perm
      ((runCreates derive publicSuffixList calls t).2.rows.map
        fun r => (r.deterministicId, r.identifier))

/-- `create_if_not_exists` is idempotent over whole runs: from a table whose keys are the
derivations of their identifiers, with an injective derivation and a public suffix list
that answers, every run of calls converges. -/
theorem runCreates_converges [DecidableEq DeterministicId]
    (hinj : Function.Injective (derive .dapp)) (publicSuffixList : PublicSuffixList Origin)
    (hpsl : ∀ origin, ∃ domain, publicSuffixList.registrableDomain origin = .ok domain)
    (calls : List (Url × String)) (t : DappsTable DeterministicId Url)
    (ht : Keyed derive t.rows) : Converges derive publicSuffixList calls t := by
  have hrows := runCreates_rows hinj publicSuffixList calls ht
  have hnodup := keyed_identifiers_nodup ht
  have hkeyed := fun calls => keyed_foldl_register ht (keyed_requests publicSuffixList calls)
  refine ⟨runCreates_results _ _ _, ?_, hrows, ?_, fun i => ?_, hrows ▸ hkeyed calls, ?_, ?_⟩
  · rw [runCreates_results]
    intro result hr
    obtain ⟨call, -, rfl⟩ := List.mem_map.1 hr
    obtain ⟨i, hi⟩ := dappIdentifier_eq_ok hpsl call.1
    exact ⟨_, by rw [hi]; rfl⟩
  · exact hrows ▸ nodup_identifiers_foldl_register hnodup _
  · rw [hrows, mem_identifiers_foldl_register, exists_mem_requests_iff]
  · rintro xs ys rfl
    rw [runCreates_append]
    exact rows_prefix_runCreates _ _ _
  · intro calls' hp
    rw [hrows, runCreates_rows hinj publicSuffixList calls' ht, pairs_eq (hkeyed calls'),
      pairs_eq (hkeyed calls)]
    exact (identifiers_foldl_register_perm hnodup (hp.filterMap _)).map _

theorem createIfNotExists_eq_ok_iff [DecidableEq DeterministicId]
    (publicSuffixList : PublicSuffixList Origin) (url : Url) (createdAt : String)
    (t t' : DappsTable DeterministicId Url) (dappId : DeterministicId) :
    Dapp.createIfNotExists derive url publicSuffixList createdAt t = .ok (dappId, t') ↔
      ∃ row, request derive publicSuffixList (url, createdAt) = some row ∧
        dappId = row.deterministicId ∧ t' = t.insertOnConflictDoNothing row := by
  unfold Dapp.createIfNotExists request
  cases DappEntity.new url publicSuffixList <;>
    simp [bind, Except.bind, pure, Except.pure, DappEntity.createIfNotExists, deterministicId,
      DeriveDeterministicId.entityName, DeriveDeterministicId.uniqueColumns, eq_comm]

/-- Once `create_if_not_exists` has returned a dapp's id, the table gives that id's
identifier back. -/
theorem fetchDappIdentifier_createIfNotExists [DecidableEq DeterministicId] [From DbError Error]
    (hinj : Function.Injective (derive .dapp)) {t : DappsTable DeterministicId Url}
    (ht : Keyed derive t.rows) (publicSuffixList : PublicSuffixList Origin) (url : Url)
    (createdAt : String) {dappId : DeterministicId} {t' : DappsTable DeterministicId Url}
    (h : Dapp.createIfNotExists derive url publicSuffixList createdAt t = .ok (dappId, t')) :
    Dapp.fetchDappIdentifier t' dappId = Dapp.dappIdentifier url publicSuffixList := by
  obtain ⟨row, hreq, rfl, rfl⟩ := (createIfNotExists_eq_ok_iff _ _ _ _ _ _).1 h
  have hk := request_keyed hreq
  have hrows := insertOnConflictDoNothing_eq_register hinj ht hk
  obtain ⟨r, hr, hri⟩ := List.mem_map.1
    ((mem_identifiers_register t.rows row row.identifier).2 (.inr rfl))
  have hkr : r.deterministicId = row.deterministicId := by
    rw [keyed_foldl_register ht hk r hr, hri, hk row (List.mem_singleton_self _)]
  rw [← hrows] at hr
  rw [Dapp.fetchDappIdentifier, ((t.insertOnConflictDoNothing row).first_eq_ok_iff _ _).2 ⟨hr, hkr⟩,
    (exists_request_iff publicSuffixList (url, createdAt) _).1 ⟨row, hreq, rfl⟩, ← hri]
  rfl

/-- `create_if_not_exists` is idempotent: after a run of calls, calls for the same URLs, at
any later times, leave the table as the run left it. -/
theorem runCreates_idempotent [DecidableEq DeterministicId]
    (hinj : Function.Injective (derive .dapp)) (publicSuffixList : PublicSuffixList Origin)
    (calls calls' : List (Url × String))
    (hurls : ∀ call' ∈ calls', ∃ call ∈ calls, call'.1 = call.1)
    {t : DappsTable DeterministicId Url} (ht : Keyed derive t.rows) :
    (runCreates derive publicSuffixList calls' (runCreates derive publicSuffixList calls t).2).2 =
      (runCreates derive publicSuffixList calls t).2 := by
  have hrows := runCreates_rows hinj publicSuffixList calls ht
  have hk : Keyed derive (runCreates derive publicSuffixList calls t).2.rows :=
    hrows ▸ keyed_foldl_register ht (keyed_requests publicSuffixList calls)
  refine Table.ext ((runCreates_rows hinj publicSuffixList calls' hk).trans
    (foldl_register_of_mem fun r hr => ?_))
  obtain ⟨call', hc', hi⟩ :=
    (exists_mem_requests_iff publicSuffixList calls' r.identifier).1 ⟨r, hr, rfl⟩
  obtain ⟨call, hc, hurl⟩ := hurls call' hc'
  rw [hrows, mem_identifiers_foldl_register, exists_mem_requests_iff]
  exact .inr ⟨call, hc, hurl ▸ hi⟩

end

/-- A URL of the examples, standing for its own origin: scheme, host and port. -/
structure ExampleUrl where
  scheme : String
  host : String
  port : Option Nat

instance : UrlOrigin ExampleUrl ExampleUrl := ⟨id⟩

instance : AsciiSerialization ExampleUrl := ⟨fun o => o.scheme ++ "://" ++ o.host⟩

/-- A public suffix list in which every suffix is one label: the registrable domain is the
host's last two labels. -/
def examplePublicSuffixList : PublicSuffixList ExampleUrl :=
  ⟨fun o => .ok (some (".".intercalate ((o.host.splitOn ".").reverse.take 2).reverse))⟩

/-- The spec's two URLs of one dapp, created one after the other from an empty table, with
the derivation that keeps its input. -/
theorem runCreates_converges_example :
    Function.Injective (Prod.mk EntityName.dapp : List (List UInt8) → _) ∧
      (∀ origin, ∃ domain, examplePublicSuffixList.registrableDomain origin = .ok domain) ∧
      Keyed Prod.mk ([] : List (Dapp (EntityName × List (List UInt8)) ExampleUrl)) ∧
      Converges Prod.mk examplePublicSuffixList
        [(ExampleUrl.mk "https" "www.example.com" none, "2023-11-14T22:13:20Z"),
          (ExampleUrl.mk "http" "app.example.com" (some 8080), "2023-11-14T22:13:21Z")]
        ⟨[], List.nodup_nil⟩ :=
  have hinj : Function.Injective (Prod.mk EntityName.dapp : List (List UInt8) → _) :=
    fun _ _ h => congrArg Prod.snd h
  have hpsl : ∀ origin, ∃ domain, examplePublicSuffixList.registrableDomain origin = .ok domain :=
    fun _ => ⟨_, rfl⟩
  have hk : Keyed Prod.mk ([] : List (Dapp (EntityName × List (List UInt8)) ExampleUrl)) := nofun
  ⟨hinj, hpsl, hk, runCreates_converges hinj _ hpsl _ _ hk⟩

/-- The spec's first URL created once more, a second after the run of both URLs. -/
theorem runCreates_idempotent_example :
    Function.Injective (Prod.mk EntityName.dapp : List (List UInt8) → _) ∧
      (∀ call' ∈ [(ExampleUrl.mk "https" "www.example.com" none, "2023-11-14T22:13:22Z")],
        ∃ call ∈ [(ExampleUrl.mk "https" "www.example.com" none, "2023-11-14T22:13:20Z"),
          (ExampleUrl.mk "http" "app.example.com" (some 8080), "2023-11-14T22:13:21Z")],
        call'.1 = call.1) ∧
      Keyed Prod.mk ([] : List (Dapp (EntityName × List (List UInt8)) ExampleUrl)) ∧
      (runCreates Prod.mk examplePublicSuffixList
          [(ExampleUrl.mk "https" "www.example.com" none, "2023-11-14T22:13:22Z")]
          (runCreates Prod.mk examplePublicSuffixList
            [(ExampleUrl.mk "https" "www.example.com" none, "2023-11-14T22:13:20Z"),
              (ExampleUrl.mk "http" "app.example.com" (some 8080), "2023-11-14T22:13:21Z")]
            ⟨[], List.nodup_nil⟩).2).2 =
        (runCreates Prod.mk examplePublicSuffixList
          [(ExampleUrl.mk "https" "www.example.com" none, "2023-11-14T22:13:20Z"),
            (ExampleUrl.mk "http" "app.example.com" (some 8080), "2023-11-14T22:13:21Z")]
          ⟨[], List.nodup_nil⟩).2 :=
  have hinj : Function.Injective (Prod.mk EntityName.dapp : List (List UInt8) → _) :=
    fun _ _ h => congrArg Prod.snd h
  have hurls : ∀ call' ∈ [(ExampleUrl.mk "https" "www.example.com" none, "2023-11-14T22:13:22Z")],
      ∃ call ∈ [(ExampleUrl.mk "https" "www.example.com" none, "2023-11-14T22:13:20Z"),
        (ExampleUrl.mk "http" "app.example.com" (some 8080), "2023-11-14T22:13:21Z")],
      call'.1 = call.1 := fun _ hc => ⟨_, List.mem_cons_self _ _, by rw [List.mem_singleton.1 hc]⟩
  have hk : Keyed Prod.mk ([] : List (Dapp (EntityName × List (List UInt8)) ExampleUrl)) := nofun
  ⟨hinj, hurls, hk, runCreates_idempotent hinj _ _ _ hurls hk⟩

/-- The spec's first URL created in an empty table, and its identifier fetched back. -/
theorem fetchDappIdentifier_createIfNotExists_example :
    Function.Injective (Prod.mk EntityName.dapp : List (List UInt8) → _) ∧
      Keyed Prod.mk ([] : List (Dapp (EntityName × List (List UInt8)) ExampleUrl)) ∧
      ∃ dappId t', Dapp.createIfNotExists Prod.mk (ExampleUrl.mk "https" "www.example.com" none)
          examplePublicSuffixList "2023-11-14T22:13:20Z" ⟨[], List.nodup_nil⟩ = .ok (dappId, t') ∧
        Dapp.fetchDappIdentifier t' dappId =
          Dapp.dappIdentifier (ExampleUrl.mk "https" "www.example.com" none)
            examplePublicSuffixList :=
  have hinj : Function.Injective (Prod.mk EntityName.dapp : List (List UInt8) → _) :=
    fun _ _ h => congrArg Prod.snd h
  have hk : Keyed Prod.mk ([] : List (Dapp (EntityName × List (List UInt8)) ExampleUrl)) := nofun
  ⟨hinj, hk, _, _, rfl, fetchDappIdentifier_createIfNotExists hinj hk _ _ _ rfl⟩

end SealVault.Db
