import Mathlib.Data.List.Sort
import Mathlib.Data.List.Perm.Basic
import Mathlib.Order.Basic

/-!
# Offset pagination

Items are listed page by page in an order of a key: the page at an offset has what stands there, and
the next one begins where it ends.  Whether there is a next page is found out by reading one item
more than a page holds.  Items with equal keys may be arranged anew for every page.

The pages together have every item once, whatever the arrangements, if no page ends between two
items with equal keys (`exists_complete_of_endsApart`), and only then (`endsApart_of_nodup`).
-/

namespace OffsetPaging

/-- A page: its items, and whether something follows. -/
structure Page (α : Type*) where
  items : List α
  hasMore : Bool

variable {α β κ : Type*}

/-- The pages that are read from an offset on until one says that nothing follows. -/
inductive FollowsOffsets (read : ℕ → Option (Page α)) (limit : ℕ) : ℕ → List (Page α) → Prop
  | last {offset : ℕ} {page : Page α} (h : read offset = some page) (hlast : page.hasMore = false) :
      FollowsOffsets read limit offset [page]
  | more {offset : ℕ} {page : Page α} {pages : List (Page α)} (h : read offset = some page)
      (hmore : page.hasMore = true) (rest : FollowsOffsets read limit (offset + limit) pages) :
      FollowsOffsets read limit offset (page :: pages)

/-- What the pages have together. -/
def listed (pages : List (Page α)) : List α := (pages.map Page.items).flatten

/-- The page made of the rows that were read, at most one more than it holds. -/
def pageOf (limit : ℕ) (rows : List α) : Page α :=
  if limit < rows.length then ⟨rows.take limit, true⟩ else ⟨rows, false⟩

/-- The rows that are read for a page. -/
def rowsAt (limit offset : ℕ) (items : List α) : List α := (items.drop offset).take (limit + 1)

/-- What a page shows of its rows. -/
def Page.map (f : α → β) (page : Page α) : Page β := ⟨page.items.map f, page.hasMore⟩

/-- Whether something follows is known of the rows by their number alone. -/
theorem pageOf_map (f : α → β) (limit : ℕ) (rows : List α) :
    pageOf limit (rows.map f) = (pageOf limit rows).map f := by
  rw [pageOf, pageOf, List.length_map]
  split
  · rw [← List.map_take]
    rfl
  · rfl

theorem listed_cons (page : Page α) (pages : List (Page α)) :
    listed (page :: pages) = page.items ++ listed pages := rfl

/-- The page at an offset. -/
theorem pageOf_rowsAt (limit offset : ℕ) (items : List α) :
    pageOf limit (rowsAt limit offset items) =
      ⟨(items.drop offset).take limit, decide (offset + limit < items.length)⟩ := by
  rw [pageOf, rowsAt, List.length_take, List.length_drop]
  by_cases hmore : offset + limit < items.length
  · rw [if_pos (by omega), List.take_take, decide_eq_true hmore, min_eq_left (Nat.le_succ limit)]
  · have hall : (items.drop offset).length ≤ limit := by
      rw [List.length_drop]
      omega
    rw [if_neg (by omega), decide_eq_false hmore, List.take_of_length_le hall,
      List.take_of_length_le (hall.trans (Nat.le_succ limit))]

/-- Showing something of the rows does not change which pages are read. -/
theorem followsOffsets_map_iff {read : ℕ → Page α} {limit offset : ℕ} (f : α → β)
    {shown : List (Page β)} :
    FollowsOffsets (fun offset => some ((read offset).map f)) limit offset shown ↔
      ∃ pages, FollowsOffsets (fun offset => some (read offset)) limit offset pages ∧
        shown = pages.map (Page.map f) := by
  constructor
  · intro h
    induction h with
    | @last offset page h hlast =>
      obtain rfl := Option.some.inj h
      exact ⟨[read offset], .last rfl hlast, rfl⟩
    | @more offset page pages h hmore _ ih =>
      obtain rfl := Option.some.inj h
      obtain ⟨others, hothers, rfl⟩ := ih
      exact ⟨read offset :: others, .more rfl hmore hothers, rfl⟩
  · rintro ⟨pages, h, rfl⟩
    induction h with
    | @last offset page h hlast =>
      obtain rfl := Option.some.inj h
      exact .last rfl hlast
    | @more offset page pages h hmore _ ih =>
      obtain rfl := Option.some.inj h
      exact .more rfl hmore ih

theorem listed_map (f : α → β) (pages : List (Page α)) :
    listed (pages.map (Page.map f)) = (listed pages).map f := by
  induction pages with
  | nil => rfl
  | cons page pages ih =>
    rw [List.map_cons, listed_cons, listed_cons, ih, List.map_append]
    rfl

variable [LinearOrder κ] (key : α → κ)

/-- An order in which the items may be returned. -/
structure Arranges (items arranged : List α) : Prop where
  perm : arranged.Perm items
  sorted : arranged.Pairwise fun a b => key a ≤ key b

/-- No page ends between two items with equal keys: at the end of a page, all the items with a key
have been listed, or none. -/
def EndsApart (items : List α) (limit : ℕ) : Prop :=
  ∀ item ∈ items, ∀ n, n * limit ≤ items.countP (fun other => key other < key item) ∨
    items.countP (fun other => key other ≤ key item) ≤ n * limit

/-- The pages have every item once, in the order of the key. -/
structure Complete (items : List α) (pages : List (Page α)) : Prop where
  perm : (listed pages).Perm items
  sorted : (listed pages).Pairwise fun a b => key a ≤ key b

variable {key} {items arranged : List α} {limit : ℕ}

theorem Arranges.length (h : Arranges key items arranged) : arranged.length = items.length :=
  h.perm.length_eq

variable (key items) in
/-- A stable sort is an arrangement. -/
theorem arranges_insertionSort :
    Arranges key items (items.insertionSort fun a b => key a ≤ key b) where
  perm := List.perm_insertionSort _ items
  sorted :=
    have : Std.Total fun a b : α => key a ≤ key b := ⟨fun a b => le_total (key a) (key b)⟩
    have : IsTrans α fun a b => key a ≤ key b := ⟨fun _ _ _ => le_trans⟩
    List.pairwise_insertionSort _ items

/-- A list in the order of a key begins with what is below a bound. -/
theorem filter_append_filter {items : List α} (h : items.Pairwise fun a b => key a ≤ key b)
    (bound : κ) :
    items.filter (fun item => key item < bound) ++ items.filter (fun item => bound ≤ key item) =
      items := by
  induction items with
  | nil => rfl
  | cons item items ih =>
    obtain ⟨hitem, hitems⟩ := List.pairwise_cons.mp h
    by_cases hlt : key item < bound
    · rw [List.filter_cons_of_pos (by simpa using hlt),
        List.filter_cons_of_neg (by simpa using hlt), List.cons_append, ih hitems]
    · have hle : bound ≤ key item := not_lt.mp hlt
      have hnone : items.filter (fun item => key item < bound) = [] := by
        apply List.filter_eq_nil_iff.mpr
        intro other hother
        simpa using hle.trans (hitem other hother)
      rw [List.filter_cons_of_neg (by simpa using hle),
        List.filter_cons_of_pos (by simpa using hle), hnone, List.nil_append]
      congr 1
      have hrest := ih hitems
      rwa [hnone, List.nil_append] at hrest

/-- The items below a bound are in front of every arrangement. -/
theorem Arranges.take_eq (h : Arranges key items arranged) (bound : κ) {n : ℕ}
    (hn : items.countP (fun item => key item < bound) = n) :
    arranged.take n = arranged.filter fun item => key item < bound := by
  have hlength : (arranged.filter fun item => key item < bound).length = n := by
    rw [← List.countP_eq_length_filter, h.perm.countP_eq, hn]
  calc arranged.take n
      = (arranged.filter (fun item => key item < bound) ++
          arranged.filter fun item => bound ≤ key item).take n := by
        rw [filter_append_filter h.sorted]
    _ = arranged.filter fun item => key item < bound := List.take_left' hlength

/-- An item stands behind all those with smaller keys. -/
theorem Arranges.countP_lt_le (h : Arranges key items arranged) {n : ℕ} {item : α}
    (hitem : arranged[n]? = some item) :
    items.countP (fun other => key other < key item) ≤ n := by
  by_contra hlt
  have htake := h.take_eq (key item) rfl
  have hmem : item ∈ arranged.take (items.countP fun other => key other < key item) :=
    List.mem_of_getElem? (by rw [List.getElem?_take_of_lt (not_le.mp hlt)]; exact hitem)
  rw [htake] at hmem
  exact absurd (of_decide_eq_true (List.mem_filter.mp hmem).2) (lt_irrefl _)

/-- And in front of all those with larger keys. -/
theorem Arranges.lt_countP_le (h : Arranges key items arranged) {n : ℕ} {item : α}
    (hitem : arranged[n]? = some item) :
    n < items.countP fun other => key other ≤ key item := by
  obtain ⟨hn, rfl⟩ := List.getElem?_eq_some_iff.mp hitem
  have hall : ∀ other ∈ arranged.take (n + 1), key other ≤ key arranged[n] := by
    intro other hother
    obtain ⟨i, hi, rfl⟩ := List.mem_iff_getElem.mp hother
    rw [List.getElem_take]
    rw [List.length_take] at hi
    rcases Nat.lt_or_ge i n with hlt | hge
    · exact List.pairwise_iff_getElem.mp h.sorted i n _ hn hlt
    · obtain rfl : i = n := by omega
      exact le_rfl
  have hcount :
      (arranged.take (n + 1)).countP (fun other => key other ≤ key arranged[n]) = n + 1 := by
    rw [List.countP_eq_length.mpr (by simpa using hall), List.length_take]
    omega
  have hsublist := (List.take_sublist (n + 1) arranged).countP_le
    (p := fun other => decide (key other ≤ key arranged[n]))
  rw [hcount, h.perm.countP_eq] at hsublist
  exact hsublist

/-- Where pages end apart, every arrangement has the same items in front of the end of a page. -/
theorem take_perm (happart : EndsApart key items limit) {first second : List α}
    (hfirst : Arranges key items first) (hsecond : Arranges key items second) (n : ℕ) :
    (first.take (n * limit)).Perm (second.take (n * limit)) := by
  have hperm : first.Perm second := hfirst.perm.trans hsecond.perm.symm
  cases hitem : first[n * limit]? with
  | none =>
    have hlength := List.getElem?_eq_none_iff.mp hitem
    rw [List.take_of_length_le hlength, List.take_of_length_le (hperm.length_eq ▸ hlength)]
    exact hperm
  | some item =>
    have hmem : item ∈ items := hfirst.perm.subset (List.mem_of_getElem? hitem)
    have hbefore := hfirst.countP_lt_le hitem
    have hbehind := hfirst.lt_countP_le hitem
    have hcount : items.countP (fun other => key other < key item) = n * limit := by
      rcases happart item hmem n with h | h <;> omega
    rw [hfirst.take_eq (key item) hcount, hsecond.take_eq (key item) hcount]
    exact hperm.filter _

/-- So the pages at one offset have the same items in every arrangement. -/
theorem page_perm {first second : List α} {offset : ℕ}
    (hstart : (first.take offset).Perm (second.take offset))
    (hend : (first.take (offset + limit)).Perm (second.take (offset + limit))) :
    ((first.drop offset).take limit).Perm ((second.drop offset).take limit) := by
  rw [List.take_add, List.take_add] at hend
  exact (List.perm_append_left_iff _).mp (hend.trans (hstart.symm.append_right _))

/-! ## Reading all the pages -/

/-- The page at an offset, from the arrangement that is returned for it. -/
def readAt (limit : ℕ) (arrangement : ℕ → List α) (offset : ℕ) : Page α :=
  pageOf limit (rowsAt limit offset (arrangement offset))

/-- The pages from an offset on have what the first arrangement has there, if at every end of a page
the arrangements have the same items in front; by induction on what is left. -/
theorem exists_complete_from {arrangement : ℕ → List α} (hlimit : 1 ≤ limit)
    (harranged : ∀ offset, Arranges key items (arrangement offset))
    {sorted : List α} (hsorted : Arranges key items sorted)
    (htakes : ∀ n m, ((arrangement n).take (m * limit)).Perm (sorted.take (m * limit)))
    (n : ℕ) :
    ∃ pages, FollowsOffsets (fun offset => some (readAt limit arrangement offset)) limit
        (n * limit) pages ∧
      (listed pages).Perm (sorted.drop (n * limit)) ∧
        (listed pages).Pairwise fun a b => key a ≤ key b := by
  induction hleft : items.length - n * limit using Nat.strong_induction_on generalizing n with
  | _ left ih =>
    have hlength : ∀ offset, (arrangement offset).length = items.length := fun offset =>
      (harranged offset).length
    have hpage : readAt limit arrangement (n * limit) =
        ⟨((arrangement (n * limit)).drop (n * limit)).take limit,
          decide (n * limit + limit < items.length)⟩ := by
      rw [readAt, pageOf_rowsAt, hlength]
    have hnext : n * limit + limit = (n + 1) * limit := (Nat.succ_mul n limit).symm
    have hperm : (((arrangement (n * limit)).drop (n * limit)).take limit).Perm
        ((sorted.drop (n * limit)).take limit) :=
      page_perm (htakes _ n) (hnext ▸ htakes _ (n + 1))
    have hpairwise : (((arrangement (n * limit)).drop (n * limit)).take limit).Pairwise
        fun a b => key a ≤ key b :=
      (harranged _).sorted.sublist ((List.take_sublist _ _).trans (List.drop_sublist _ _))
    by_cases hmore : n * limit + limit < items.length
    · obtain ⟨pages, hpages, hitems, horder⟩ := ih _ (by omega) (n + 1) rfl
      refine ⟨_, .more rfl (by rw [hpage]; exact decide_eq_true hmore) (hnext ▸ hpages), ?_, ?_⟩
      · rw [listed_cons, hpage]
        have hsplit : sorted.drop (n * limit) =
            (sorted.drop (n * limit)).take limit ++ sorted.drop ((n + 1) * limit) := by
          rw [← hnext, ← List.drop_drop, List.take_append_drop]
        rw [hsplit]
        exact hperm.append hitems
      · rw [listed_cons, hpage, List.pairwise_append]
        refine ⟨hpairwise, horder, ?_⟩
        intro a ha b hb
        have ha' := hperm.subset ha
        have hb' := hitems.subset hb
        rw [← hnext, ← List.drop_drop] at hb'
        have hdrop : (sorted.drop (n * limit)).Pairwise fun a b => key a ≤ key b :=
          hsorted.sorted.sublist (List.drop_sublist _ _)
        rw [← List.take_append_drop limit (sorted.drop (n * limit))] at hdrop
        exact (List.pairwise_append.mp hdrop).2.2 a ha' b hb'
    · have hlast : sorted.drop (n * limit) = (sorted.drop (n * limit)).take limit := by
        rw [List.take_of_length_le]
        rw [List.length_drop, hsorted.length]
        omega
      refine ⟨_, .last rfl (by rw [hpage]; exact decide_eq_false hmore), ?_, ?_⟩
      · rw [listed_cons, hpage, hlast]
        simpa [listed] using hperm
      · rw [listed_cons, hpage]
        simpa [listed] using hpairwise

/-- Pages that are all read from one arrangement have every item once. -/
theorem exists_complete_of_fixed (hlimit : 1 ≤ limit) {sorted : List α}
    (hsorted : Arranges key items sorted) :
    ∃ pages, FollowsOffsets (fun offset => some (readAt limit (fun _ => sorted) offset)) limit 0
      pages ∧ Complete key items pages := by
  obtain ⟨pages, hpages, hperm, horder⟩ := exists_complete_from hlimit (fun _ => hsorted) hsorted
    (fun _ _ => List.Perm.refl _) 0
  rw [Nat.zero_mul] at hpages hperm
  exact ⟨pages, hpages, hperm.trans hsorted.perm, horder⟩

/-- So have pages that end apart, whatever the arrangements. -/
theorem exists_complete_of_endsApart (happart : EndsApart key items limit) (hlimit : 1 ≤ limit)
    {arrangement : ℕ → List α} (harranged : ∀ offset, Arranges key items (arrangement offset)) :
    ∃ pages, FollowsOffsets (fun offset => some (readAt limit arrangement offset)) limit 0 pages ∧
      Complete key items pages := by
  have hsorted := arranges_insertionSort key items
  obtain ⟨pages, hpages, hperm, horder⟩ := exists_complete_from hlimit harranged hsorted
    (fun n m => take_perm happart (harranged n) hsorted m) 0
  rw [Nat.zero_mul] at hpages hperm
  exact ⟨pages, hpages, hperm.trans hsorted.perm, horder⟩

/-- Up to an offset the pages have what stands there in the arrangement they were read from. -/
theorem FollowsOffsets.listed_eq {arrangement : ℕ → List α} {stop offset : ℕ}
    {pages : List (Page α)}
    (h : FollowsOffsets (fun offset => some (readAt limit arrangement offset)) limit offset pages)
    (sorted : List α) (hsorted : ∀ offset < stop, arrangement offset = sorted)
    (hstop : stop < sorted.length)
    {n : ℕ} (hn : stop = offset + n * limit) :
    ∃ rest, FollowsOffsets (fun offset => some (readAt limit arrangement offset)) limit stop
      rest ∧ listed pages = (sorted.drop offset).take (n * limit) ++ listed rest := by
  induction n generalizing offset pages with
  | zero =>
    obtain rfl : stop = offset := by omega
    exact ⟨pages, h, by simp⟩
  | succ n ih =>
    rw [Nat.succ_mul] at hn
    by_cases hlimit : limit = 0
    · subst hlimit
      obtain rfl : stop = offset := by omega
      exact ⟨pages, h, by simp⟩
    have hpage : readAt limit arrangement offset =
        ⟨(sorted.drop offset).take limit, true⟩ := by
      rw [readAt, hsorted offset (by omega), pageOf_rowsAt, decide_eq_true (by omega)]
    cases h with
    | last h hlast =>
      obtain rfl := Option.some.inj h
      rw [hpage] at hlast
      exact nomatch hlast
    | @more _ page others h hmore hrest =>
      obtain rfl := Option.some.inj h
      obtain ⟨rest, hfollows, hlisted⟩ := ih hrest (by omega)
      refine ⟨rest, hfollows, ?_⟩
      rw [listed_cons, hpage, hlisted, Nat.succ_mul, Nat.add_comm (n * limit), List.take_add,
        List.drop_drop, List.append_assoc]

/-- The pages begin with what stands at their offset. -/
theorem FollowsOffsets.mem_listed {arrangement : ℕ → List α} {offset : ℕ} {pages : List (Page α)}
    (h : FollowsOffsets (fun offset => some (readAt limit arrangement offset)) limit offset pages)
    (hlimit : 1 ≤ limit) {first : α} {behind : List α}
    (hdrop : (arrangement offset).drop offset = first :: behind) : first ∈ listed pages := by
  have hpage : first ∈ (readAt limit arrangement offset).items := by
    obtain ⟨limit, rfl⟩ := Nat.exists_eq_add_of_le' hlimit
    rw [readAt, pageOf_rowsAt, hdrop]
    exact List.mem_cons_self
  cases h with
  | last h hlast =>
    obtain rfl := Option.some.inj h
    simpa [listed] using hpage
  | more h hmore hrest =>
    obtain rfl := Option.some.inj h
    rw [listed_cons]
    exact List.mem_append_left _ hpage

/-- What stands on the two sides of a place inside of a list. -/
theorem exists_split_of_lt {list : List α} {n : ℕ} (hpos : 0 < n) (hlength : n < list.length) :
    ∃ before first second behind, list = before ++ first :: second :: behind ∧
      before.length + 1 = n := by
  have hdrop : list.drop (n - 1) = list[n - 1] :: list.drop n := by
    have h := List.drop_eq_getElem_cons (i := n - 1) (l := list) (by omega)
    rwa [Nat.sub_add_cancel hpos] at h
  have hnext : list.drop n = list[n] :: list.drop (n + 1) := List.drop_eq_getElem_cons hlength
  refine ⟨list.take (n - 1), list[n - 1], list[n], list.drop (n + 1), ?_, ?_⟩
  · rw [← hnext, ← hdrop, List.take_append_drop]
  · rw [List.length_take]
    omega

/-- If a page ends between two items with equal keys, an arrangement that swaps them for the next
page makes one of them appear twice. -/
theorem endsApart_of_nodup (hlimit : 1 ≤ limit)
    (honce : ∀ arrangement : ℕ → List α,
      (∀ offset, Arranges key items (arrangement offset)) →
      ∃ pages, FollowsOffsets (fun offset => some (readAt limit arrangement offset)) limit 0 pages ∧
        (listed pages).Nodup) : EndsApart key items limit := by
  intro item _ n
  by_contra hends
  rw [not_or, not_le, not_le] at hends
  obtain ⟨hbefore, hbehind⟩ := hends
  have hsorted := arranges_insertionSort key items
  revert hsorted
  generalize items.insertionSort (fun a b => key a ≤ key b) = sorted
  intro hsorted
  have hlength : n * limit < sorted.length := by
    rw [hsorted.length]
    exact hbehind.trans_le List.countP_le_length
  obtain ⟨before, first, second, behind, rfl, hfront⟩ := exists_split_of_lt
    (hbefore.trans_le' (Nat.zero_le _)) hlength
  have hfirst : (before ++ first :: second :: behind)[before.length]? = some first := by simp
  have hsecond : (before ++ first :: second :: behind)[n * limit]? = some second := by
    rw [← hfront, List.getElem?_append_right (Nat.le_succ _)]
    simp
  have hle : key first ≤ key second :=
    (List.pairwise_cons.mp (List.pairwise_append.mp hsorted.sorted).2.1).1 second
      List.mem_cons_self
  have hupper : key second ≤ key item := by
    by_contra hgt
    have hcount : items.countP (fun other => key other ≤ key item) ≤
        items.countP fun other => key other < key second :=
      List.countP_mono_left fun other _ h => by
        simpa using (of_decide_eq_true h).trans_lt (not_le.mp hgt)
    have hat := hsorted.countP_lt_le hsecond
    omega
  have hlower : key item ≤ key first := by
    by_contra hlt
    have hcount : items.countP (fun other => key other ≤ key first) ≤
        items.countP fun other => key other < key item :=
      List.countP_mono_left fun other _ h => by
        simpa using (of_decide_eq_true h).trans_lt (not_le.mp hlt)
    have hat := hsorted.lt_countP_le hfirst
    omega
  have hkeys : key first = key second := le_antisymm hle (hupper.trans hlower)
  have hswapped : Arranges key items (before ++ second :: first :: behind) := by
    refine ⟨((List.Perm.swap first second behind).append_left before).trans hsorted.perm, ?_⟩
    have hsame : (before ++ second :: first :: behind).map key =
        (before ++ first :: second :: behind).map key := by simp [hkeys]
    exact List.pairwise_map.mp (hsame ▸ List.pairwise_map.mpr hsorted.sorted)
  obtain ⟨pages, hpages, hnodup⟩ := honce
    (fun offset => if offset = n * limit then before ++ second :: first :: behind
      else before ++ first :: second :: behind)
    (fun offset => by split <;> assumption)
  obtain ⟨rest, hrest, hlisted⟩ := hpages.listed_eq (before ++ first :: second :: behind)
    (fun offset hoffset => if_neg hoffset.ne) hlength (Nat.zero_add _).symm
  have hin : first ∈ (before ++ first :: second :: behind).take (n * limit) := by
    rw [← hfront]
    simp [List.take_append]
  have hdrop : (before ++ second :: first :: behind).drop (n * limit) = first :: behind := by
    rw [← hfront, ← List.drop_drop, List.drop_left]
    rfl
  have hagain : first ∈ listed rest :=
    hrest.mem_listed hlimit ((congrArg (List.drop (n * limit)) (if_pos rfl)).trans hdrop)
  rw [hlisted, List.drop_zero] at hnodup
  exact (List.nodup_append.mp hnodup).2.2 first hin first hagain rfl

end OffsetPaging
