import Mathlib.Order.Basic
import Mathlib.Data.List.Basic
import Mathlib.Order.Lattice

/-!
# Keyset pagination

A list in strictly ascending order of a key is read page by page: the cursor of a page is the key of
its last item, and the next page has what comes behind it.  Whether there is a next page is found
out by reading one row more than a page holds.

Following the cursors ends, and the pages are the list cut into pieces (`exists_complete`).
-/

namespace KeysetPaging

/-- A page: its items, the cursor of the next page, and whether there is one. -/
structure Page (κ α : Type*) where
  items : List α
  nextCursor : Option κ
  hasMore : Bool

variable {κ α : Type*}

/-- The pages that are read by following the cursors from one on. -/
inductive FollowsCursors (read : Option κ → Page κ α) : Option κ → List (Page κ α) → Prop
  /-- A page without a cursor is the last. -/
  | last {cursor : Option κ} (h : (read cursor).nextCursor = none) :
      FollowsCursors read cursor [read cursor]
  /-- A page with a cursor, and those read from there. -/
  | more {cursor : Option κ} {next : κ} {pages : List (Page κ α)}
      (h : (read cursor).nextCursor = some next) (rest : FollowsCursors read (some next) pages) :
      FollowsCursors read cursor (read cursor :: pages)

/-- The pages are a list cut into pieces of at most `limit` items, and only the last says that
nothing follows. -/
structure Complete (limit : ℕ) (items : List α) (pages : List (Page κ α)) : Prop where
  concatenated : (pages.map Page.items).flatten = items
  bounded : ∀ page ∈ pages, page.items.length ≤ limit
  lastOnly : ∃ front last, pages = front ++ [last] ∧ (∀ page ∈ front, page.hasMore = true) ∧
    last.hasMore = false

/-- The page made of the rows that were read, at most one more than it holds. -/
def pageOf (key : α → κ) (limit : ℕ) (rows : List α) : Page κ α :=
  if limit < rows.length then
    ⟨rows.take limit, (rows.take limit).getLast?.map key, true⟩
  else ⟨rows, none, false⟩

variable [LinearOrder κ] {key : α → κ}

/-- The items behind a cursor. -/
def behind (key : α → κ) (items : List α) : Option κ → List α
  | none => items
  | some cursor => items.filter fun item => decide (cursor < key item)

/-- The items behind the last of a beginning are the rest of the list. -/
theorem filter_lt_eq_drop {items : List α} (hitems : items.Pairwise fun x y => key x < key y)
    {n : ℕ} {last : α} (hlast : (items.take n).getLast? = some last) :
    items.filter (fun item => decide (key last < key item)) = items.drop n := by
  have hsplit := hitems
  rw [← List.take_append_drop n items] at hsplit
  obtain ⟨htake, -, hbehind⟩ := List.pairwise_append.mp hsplit
  have hmem : last ∈ items.take n := List.mem_of_getLast? hlast
  have hbefore : (items.take n).filter (fun item => decide (key last < key item)) = [] := by
    refine List.filter_eq_nil_iff.mpr fun item hitem => ?_
    have hle : key item ≤ key last := by
      obtain ⟨front, hfront⟩ := List.getLast?_eq_some_iff.mp hlast
      rw [hfront] at hitem htake
      rcases List.mem_append.mp hitem with hitem | hitem
      · exact ((List.pairwise_append.mp htake).2.2 item hitem last (by simp)).le
      · rw [List.mem_singleton.mp hitem]
    simpa using hle
  have hafter : (items.drop n).filter (fun item => decide (key last < key item)) =
      items.drop n := by
    refine List.filter_eq_self.mpr fun item hitem => ?_
    simpa using hbehind last hmem item hitem
  calc items.filter (fun item => decide (key last < key item))
      = (items.take n ++ items.drop n).filter fun item => decide (key last < key item) := by
        rw [List.take_append_drop]
    _ = items.drop n := by rw [List.filter_append, hbefore, hafter, List.nil_append]

/-- The items behind a cursor are in order. -/
theorem pairwise_behind {items : List α} (hitems : items.Pairwise fun x y => key x < key y)
    (cursor : Option κ) : (behind key items cursor).Pairwise fun x y => key x < key y := by
  cases cursor with
  | none => exact hitems
  | some cursor => exact hitems.sublist List.filter_sublist

/-- Reading on behind the last item of a page. -/
theorem behind_getLast {items : List α} (hitems : items.Pairwise fun x y => key x < key y)
    {cursor : Option κ} {n : ℕ} {last : α}
    (hlast : ((behind key items cursor).take n).getLast? = some last) :
    behind key items (some (key last)) = (behind key items cursor).drop n := by
  rw [← filter_lt_eq_drop (pairwise_behind hitems cursor) hlast]
  cases cursor with
  | none => rfl
  | some cursor =>
    have hmem : last ∈ behind key items (some cursor) :=
      List.mem_of_mem_take (List.mem_of_getLast? hlast)
    have hcursor : cursor < key last := by
      simpa using (List.mem_filter.mp hmem).2
    rw [behind, behind, List.filter_filter]
    refine List.filter_congr fun item _ => ?_
    rw [← Bool.decide_and, decide_eq_decide]
    exact ⟨fun h => ⟨h, hcursor.trans h⟩, fun h => h.1⟩

/-- Following the cursors from any on ends, and the pages are what is behind it. -/
theorem exists_complete_from {read : Option κ → Page κ α} {items : List α} {limit : ℕ}
    (hlimit : 1 ≤ limit) (hitems : items.Pairwise fun x y => key x < key y)
    (hread : ∀ cursor, read cursor =
      pageOf key limit ((behind key items cursor).take (limit + 1)))
    (cursor : Option κ) :
    ∃ pages, FollowsCursors read cursor pages ∧
      Complete limit (behind key items cursor) pages := by
  -- each page that is not the last leaves fewer items
  induction hn : (behind key items cursor).length using Nat.strong_induction_on
    generalizing cursor with
  | _ n ih =>
    by_cases hmore : limit < (behind key items cursor).length
    · have hlength : limit < ((behind key items cursor).take (limit + 1)).length := by
        rw [List.length_take]
        omega
      have htake : ((behind key items cursor).take (limit + 1)).take limit =
          (behind key items cursor).take limit := by
        rw [List.take_take, min_eq_left (Nat.le_succ limit)]
      have hpage : read cursor = ⟨(behind key items cursor).take limit,
          ((behind key items cursor).take limit).getLast?.map key, true⟩ := by
        rw [hread, pageOf, if_pos hlength, htake]
      obtain ⟨last, hlast⟩ : ∃ last, ((behind key items cursor).take limit).getLast? = some last :=
        Option.ne_none_iff_exists'.mp fun hnone => by
          have hnil := congrArg List.length (List.getLast?_eq_none_iff.mp hnone)
          rw [List.length_take, List.length_nil] at hnil
          omega
      have hrest := behind_getLast hitems hlast
      have hfewer : (behind key items (some (key last))).length < n := by
        rw [hrest, List.length_drop]
        omega
      obtain ⟨pages, hfollows, hcomplete⟩ := ih _ hfewer (some (key last)) rfl
      have hcursor : (read cursor).nextCursor = some (key last) := by
        rw [hpage, hlast]
        rfl
      refine ⟨_, .more hcursor hfollows, ?_, ?_, ?_⟩
      · rw [List.map_cons, List.flatten_cons, hcomplete.concatenated, hpage, hrest,
          List.take_append_drop]
      · refine List.forall_mem_cons.mpr ⟨?_, hcomplete.bounded⟩
        rw [hpage]
        exact List.length_take_le _ _
      · obtain ⟨front, final, rfl, hfront, hfinal⟩ := hcomplete.lastOnly
        refine ⟨read cursor :: front, final, rfl, List.forall_mem_cons.mpr ⟨?_, hfront⟩, hfinal⟩
        rw [hpage]
    · have hall : (behind key items cursor).take (limit + 1) = behind key items cursor :=
        List.take_of_length_le (by omega)
      have hpage : read cursor = ⟨behind key items cursor, none, false⟩ := by
        rw [hread, hall, pageOf, if_neg hmore]
      refine ⟨_, .last (by rw [hpage]), ?_, ?_, ?_⟩
      · simp [hpage]
      · simpa [hpage] using hmore
      · exact ⟨[], read cursor, rfl, by simp, by rw [hpage]⟩

/-- Following the cursors from the first page ends, and the pages are the list. -/
theorem exists_complete {read : Option κ → Page κ α} {items : List α} {limit : ℕ}
    (hlimit : 1 ≤ limit) (hitems : items.Pairwise fun x y => key x < key y)
    (hread : ∀ cursor, read cursor =
      pageOf key limit ((behind key items cursor).take (limit + 1))) :
    ∃ pages, FollowsCursors read none pages ∧ Complete limit items pages :=
  exists_complete_from hlimit hitems hread none

end KeysetPaging
