import StreamPay.Library.OffsetPaging
import StreamPay.StreamReads

/-! Reading all streams through `GET /`, one page after the other. -/
namespace StreamPay
open OffsetPaging

/-- `ORDER BY created_at DESC` sorts by this key. -/
def newest (row : StreamRow) : Timestampᵒᵈ := OrderDual.toDual row.createdAt

namespace StreamRepository

/-- `findAll` with the order in which the database lists the selected rows. -/
def findAllIn (listing : List StreamRow) (table : StreamsTable) (params : FindAllParams) :
    Option StreamsPage :=
  let limit := min (params.limit.getD 20) 100
  let offset := params.offset.getD 0
  if !(params.payer.all isColumnText && params.recipient.all isColumnText) then none
  else (rowCount limit).bind fun most => (rowCount offset).map fun skipped =>
    { streams := ((listing.drop skipped).take most).map StreamRow.fetch
      total := (table.rows.filter params.selects).length
      limit
      offset }

/-- The answers that `findAll` may give: each query is free in how it lists rows
of one `created_at`. -/
def MayAnswer (table : StreamsTable) (params : FindAllParams) (answer : Option StreamsPage) :
    Prop :=
  ∃ listing, IsListing newest (table.rows.filter params.selects) listing ∧
    answer = findAllIn listing table params

theorem isListing_newestFirst (rows : List StreamRow) :
    IsListing newest rows (newestFirst rows) where
  perm := List.perm_insertionSort _ _
  sorted := by
    have htotal : Std.Total fun a b : StreamRow => b.createdAt ≤ a.createdAt :=
      ⟨fun a b => le_total b.createdAt a.createdAt⟩
    have htrans : IsTrans StreamRow fun a b => b.createdAt ≤ a.createdAt :=
      ⟨fun _ _ _ hab hbc => hbc.trans hab⟩
    exact List.pairwise_insertionSort (fun a b : StreamRow => b.createdAt ≤ a.createdAt) rows

theorem mayAnswer_findAll (table : StreamsTable) (params : FindAllParams) :
    MayAnswer table params (findAll table params) :=
  ⟨_, isListing_newestFirst _, rfl⟩

end StreamRepository

/-- The request for the page at an offset. -/
def FindAllParams.pageAt (filter : FindAllParams) (limit offset : ℕ) : FindAllParams :=
  { filter with limit := some limit, offset := some offset }

def FindAllParams.matching (filter : FindAllParams) (table : StreamsTable) : List StreamRow :=
  table.rows.filter filter.selects

/-- The database can read the texts of the filter. -/
def FindAllParams.isReadable (filter : FindAllParams) : Bool :=
  filter.payer.all isColumnText && filter.recipient.all isColumnText

/-- The pages at the offsets 0, limit, .. up to the total show every matching row
exactly once, and each tells how many there are. -/
def ReadsEachOnce (table : StreamsTable) (filter : FindAllParams) (limit : ℕ) : Prop :=
  let matching := filter.matching table
  let lastPage := matching.length/limit
  ∀ answers : ℕ → Option StreamsPage,
    (∀ k ≤ lastPage,
      StreamRepository.MayAnswer table (filter.pageAt limit (k*limit)) (answers k)) →
    ∃ pages : ℕ → StreamsPage,
      (∀ k ≤ lastPage, answers k = some (pages k) ∧ (pages k).total = matching.length) ∧
      ∀ row ∈ matching,
        ((List.range (lastPage+1)).flatMap fun k => (pages k).streams).count row.fetch = 1

namespace StreamRepository
variable {table : StreamsTable} {filter : FindAllParams} {limit : ℕ}

theorem rowCount_natCast {n : ℕ} (hn : n < 2^63) : rowCount (n : ℚ) = some n := by
  simpa [rowCount] using hn

theorem rowCount_natCast_of_le {n : ℕ} (hn : 2^63 ≤ n) : rowCount (n : ℚ) = none := by
  simpa [rowCount] using hn

theorem findAllIn_pageAt (listing : List StreamRow) (h100 : limit ≤ 100)
    (hfilter : filter.isReadable = true) {k : ℕ} (hk : k*limit < 2^63) :
    findAllIn listing table (filter.pageAt limit (k*limit)) = some
      { streams := (page limit listing k).map StreamRow.fetch
        total := (filter.matching table).length
        limit
        offset := (k*limit : ℕ) } := by
  have hlimit : min (limit : ℚ) 100 = limit := min_eq_left (by exact_mod_cast h100)
  have hmost := rowCount_natCast (show limit < 2^63 by omega)
  have hskipped := rowCount_natCast hk
  simp only [FindAllParams.isReadable] at hfilter
  simp only [findAllIn, FindAllParams.pageAt, Option.getD_some, hlimit, hmost, hskipped, hfilter]
  rfl

theorem findAllIn_eq_none (listing : List StreamRow) {k : ℕ}
    (h : filter.isReadable = false ∨ 2^63 ≤ k*limit) :
    findAllIn listing table (filter.pageAt limit (k*limit)) = none := by
  rcases h with hfilter | hoffset
  · simp only [FindAllParams.isReadable] at hfilter
    simp only [findAllIn, FindAllParams.pageAt, hfilter]
    rfl
  · have hskipped := rowCount_natCast_of_le hoffset
    simp only [findAllIn, FindAllParams.pageAt, Option.getD_some, hskipped]
    simp

/-- A query that fails shows no row. -/
theorem not_readsEachOnce_of_none {k : ℕ} (hk : k ≤ (filter.matching table).length/limit)
    (h : filter.isReadable = false ∨ 2^63 ≤ k*limit) : ¬ ReadsEachOnce table filter limit := by
  intro hread
  obtain ⟨pages,hpages,_⟩ := hread (fun k => findAllIn (newestFirst (filter.matching table)) table
    (filter.pageAt limit (k*limit))) fun k _ => ⟨_, isListing_newestFirst _, rfl⟩
  have hfound := (hpages k hk).1
  simp only [findAllIn_eq_none _ h] at hfound
  cases hfound

/-- Queries that list a row on two pages show it twice. -/
theorem not_readsEachOnce_of_twice (h100 : limit ≤ 100) (hfilter : filter.isReadable = true)
    (hoffsets : (filter.matching table).length/limit*limit < 2^63) (hlimit : 0 < limit)
    {listings : ℕ → List StreamRow}
    (hlistings : ∀ k, IsListing newest (filter.matching table) (listings k)) {k : ℕ}
    (hk : (k+1)*limit < (filter.matching table).length) {row : StreamRow}
    (hrow : row ∈ page limit (listings k) k) (hrow' : row ∈ page limit (listings (k+1)) (k+1)) :
    ¬ ReadsEachOnce table filter limit := by
  intro hread
  obtain ⟨pages,hpages,hcount⟩ := hread (fun k => findAllIn (listings k) table
    (filter.pageAt limit (k*limit))) fun k _ => ⟨_, hlistings k, rfl⟩
  have hlast : k+1 ≤ (filter.matching table).length/limit :=
    (Nat.le_div_iff_mul_le hlimit).mpr hk.le
  have hshows : ∀ j ≤ (filter.matching table).length/limit,
      (pages j).streams = (page limit (listings j) j).map StreamRow.fetch := by
    intro j hj
    have hoffset := (Nat.mul_le_mul_right limit hj).trans_lt hoffsets
    have hfound := (hpages j hj).1
    rw [findAllIn_pageAt _ h100 hfilter hoffset] at hfound
    rw [← Option.some.inj hfound]
  have hmem : row ∈ filter.matching table := by
    have hlisted : row ∈ listings k := List.mem_of_mem_drop (List.mem_of_mem_take hrow)
    exact (hlistings k).perm.mem_iff.mp hlisted
  have honce := hcount row hmem
  have htwice : 2 ≤ ((List.range ((filter.matching table).length/limit+1)).flatMap
      fun j => (pages j).streams).count row.fetch := by
    apply two_le_count (k := k) (by omega)
    · rw [hshows k (by omega)]
      exact List.mem_map_of_mem hrow
    · rw [hshows (k+1) hlast]
      exact List.mem_map_of_mem hrow'
  omega

theorem matching_fetch_nodup (table : StreamsTable) (filter : FindAllParams) :
    ((filter.matching table).map StreamRow.fetch).Nodup := by
  have hids : ((filter.matching table).map StreamOf.id).Nodup :=
    table.ids_nodup.sublist (List.filter_sublist.map StreamOf.id)
  have hsame : (filter.matching table).map StreamOf.id =
      ((filter.matching table).map StreamRow.fetch).map StreamOf.id := by
    rw [List.map_map]
    rfl
  exact List.Nodup.of_map StreamOf.id (hsame ▸ hids)

theorem readsEachOnce_of_pagesApart (h100 : limit ≤ 100) (hlimit : 0 < limit)
    (hfilter : filter.isReadable = true)
    (hoffsets : (filter.matching table).length/limit*limit < 2^63)
    (hapart : PagesApart newest limit (newestFirst (filter.matching table))) :
    ReadsEachOnce table filter limit := by
  intro answers hanswers
  set matching := filter.matching table
  set lastPage := matching.length/limit
  have hlistings : ∀ k, ∃ listing, IsListing newest matching listing ∧ (k ≤ lastPage →
      answers k = findAllIn listing table (filter.pageAt limit (k*limit))) := by
    intro k
    by_cases hk : k ≤ lastPage
    · obtain ⟨listing,hlisting,heq⟩ := hanswers k hk
      exact ⟨listing, hlisting, fun _ => heq⟩
    · exact ⟨newestFirst matching, isListing_newestFirst _, fun h => absurd h hk⟩
  choose listings hlisting heq using hlistings
  refine ⟨fun k => ⟨(page limit (listings k) k).map StreamRow.fetch, matching.length, limit,
    (k*limit : ℕ)⟩, ?_, ?_⟩
  · intro k hk
    have hoffset := (Nat.mul_le_mul_right limit hk).trans_lt hoffsets
    rw [heq k hk, findAllIn_pageAt _ h100 hfilter hoffset]
    exact ⟨rfl, rfl⟩
  · intro row hrow
    have hcover : matching.length ≤ (lastPage+1)*limit := by
      have hlt := Nat.lt_div_mul_add (a := matching.length) hlimit
      rw [Nat.succ_mul]
      exact hlt.le
    have hperm := (pages_perm (isListing_newestFirst matching) hapart hcover hlisting).map
      StreamRow.fetch
    rw [pages, List.map_flatMap] at hperm
    rw [hperm.count_eq]
    exact List.count_eq_one_of_mem (matching_fetch_nodup table filter) (List.mem_map_of_mem hrow)

end StreamRepository

/-- The pages show every matching row once exactly when no two rows of one
`created_at` stand at the end of a page and the start of the next one. -/
theorem readsEachOnce_iff (table : StreamsTable) (filter : FindAllParams) (limit : ℕ)
    (hlimit : 1 ≤ limit) (h100 : limit ≤ 100) :
    ReadsEachOnce table filter limit ↔
      filter.isReadable = true ∧ (filter.matching table).length/limit*limit < 2^63 ∧
      PagesApart newest limit (StreamRepository.newestFirst (filter.matching table)) := by
  constructor
  · intro hread
    have hfilter : filter.isReadable = true := by
      by_contra h
      exact StreamRepository.not_readsEachOnce_of_none (Nat.zero_le _)
        (Or.inl (Bool.eq_false_iff.mpr h)) hread
    have hoffsets : (filter.matching table).length/limit*limit < 2^63 := by
      by_contra h
      exact StreamRepository.not_readsEachOnce_of_none le_rfl (Or.inr (not_lt.mp h)) hread
    refine ⟨hfilter, hoffsets, ?_⟩
    by_contra htie
    obtain ⟨listings,k,row,hlistings,hk,hrow,hrow'⟩ :=
      exists_twice hlimit (StreamRepository.isListing_newestFirst _) htie
    exact StreamRepository.not_readsEachOnce_of_twice h100 hfilter hoffsets hlimit hlistings hk
      hrow hrow' hread
  · rintro ⟨hfilter,hoffsets,hapart⟩
    exact StreamRepository.readsEachOnce_of_pagesApart h100 hlimit hfilter hoffsets hapart

def listedRow (id : Uuid) (now : Timestamp) : StreamRow :=
  StreamRepository.insertedRow ⟨"payer", "recipient", "1", 0, "100", none, none, none, none, none,
    none, none, none, none, none, none, none, none⟩ 1000000000 100000000000 id now

def olderId : Uuid := ⟨"00000000-0000-4000-8000-000000000007", by decide⟩

def newerId : Uuid := ⟨"00000000-0000-4000-8000-000000000008", by decide⟩

/-- Two rows that were created apart. -/
def apartTable : StreamsTable where
  rows := [listedRow olderId 0, listedRow newerId 1000]
  ids_nodup := by decide

/-- Two pages of one row show both rows, the newer one first. -/
theorem readsEachOnce_two_pages : ReadsEachOnce apartTable {} 1 := by
  have hrows : (StreamRepository.newestFirst (FindAllParams.matching {} apartTable)).map newest =
      [1000, 0] := by decide
  refine (readsEachOnce_iff apartTable {} 1 (by decide) (by decide)).mpr ⟨rfl, by decide, ?_⟩
  intro k hk last next hlast hnext
  have hlast := List.getElem?_map.trans (congrArg (Option.map newest) hlast)
  have hnext := List.getElem?_map.trans (congrArg (Option.map newest) hnext)
  rw [hrows, Option.map_some] at hlast hnext
  have hlt : k*1 < 2 := (List.getElem?_eq_some_iff.mp hnext).1
  obtain rfl : k = 1 := by omega
  rw [← Option.some.inj hlast, ← Option.some.inj hnext]
  decide

/-- The rows of one bulk insert: all of them have the `now()` of its transaction. -/
def bulkTable : StreamsTable where
  rows := [listedRow olderId 0, listedRow newerId 0]
  ids_nodup := by decide

theorem bulkTable_length : (FindAllParams.matching {} bulkTable).length = 2 := by decide

/-- Pages of one row may show the first row twice and the second one never. -/
theorem bulk_insert_read_twice : ¬ ReadsEachOnce bulkTable {} 1 := by
  have htie : ¬ PagesApart newest 1
      (StreamRepository.newestFirst (FindAllParams.matching {} bulkTable)) := by
    intro h
    exact h 1 Nat.one_pos _ _ rfl rfl rfl
  obtain ⟨listings,k,row,hlistings,hk,hrow,hrow'⟩ :=
    exists_twice Nat.one_pos (StreamRepository.isListing_newestFirst _) htie
  refine StreamRepository.not_readsEachOnce_of_twice (by decide) rfl ?_ Nat.one_pos hlistings hk
    hrow hrow'
  rw [bulkTable_length]
  decide

end StreamPay
