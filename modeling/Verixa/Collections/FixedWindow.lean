import Mathlib.Algebra.BigOperators.Group.Finset.Basic
import Mathlib.Algebra.Order.BigOperators.Group.Finset
import Mathlib.Algebra.Order.Monoid.Defs
import Mathlib.Data.List.TakeWhile
import Mathlib.Tactic

/-!
# Machines for each key, and windows of fixed width

`outputs` is what a machine puts out along its inputs.  A machine that keeps a state for each key
(`forEachKey`) puts out at a key what the machine of that key puts out by itself
(`outputs_forEachKey`).

`IsCut` cuts times into windows of a fixed width, each of which begins with the first time that the
windows before it leave over.  `windowStep` is a counter that remembers the start of its window and
begins a new one when the window is over; it counts within the windows of the cut
(`exists_cut_outputs`).
-/

namespace FixedWindow

variable {σ τ ι ο κ : Type*}

/-! ## Machines -/

/-- What a machine puts out along its inputs. -/
def outputs (f : σ → ι → ο × σ) : σ → List ι → List ο
  | _, [] => []
  | state, input :: inputs => (f state input).1 :: outputs f (f state input).2 inputs

-- a machine that adds up its inputs
example : outputs (fun sum i : ℕ => (sum + i, sum + i)) 0 [1, 2, 3] = [1, 3, 6] := by
  rw [outputs]
  rfl

/-- Machines in states that stay related put out the same. -/
theorem outputs_eq_of_simulation {f : σ → ι → ο × σ} {g : τ → ι → ο × τ} {R : σ → τ → Prop}
    (hstep : ∀ s t i, R s t → (f s i).1 = (g t i).1 ∧ R (f s i).2 (g t i).2)
    {s : σ} {t : τ} (h : R s t) (inputs : List ι) : outputs f s inputs = outputs g t inputs := by
  induction inputs generalizing s t with
  | nil => rfl
  | cons input inputs ih =>
    obtain ⟨hout, hnext⟩ := hstep s t input h
    rw [outputs, outputs, hout, ih hnext]

/-- The outputs of a machine whose outputs are read through a function. -/
theorem outputs_map {f : σ → ι → ο × σ} {ρ : Type*} (read : ο → ρ) (s : σ) (inputs : List ι) :
    outputs (fun s i => (read (f s i).1, (f s i).2)) s inputs = (outputs f s inputs).map read := by
  induction inputs generalizing s with
  | nil => rfl
  | cons input inputs ih => rw [outputs, outputs, List.map_cons, ih]

/-- A machine whose inputs are read through a function. -/
theorem outputs_comp {f : σ → ι → ο × σ} {ρ : Type*} (read : ρ → ι) (s : σ) (inputs : List ρ) :
    outputs f s (inputs.map read) = outputs (fun s i => f s (read i)) s inputs := by
  induction inputs generalizing s with
  | nil => rfl
  | cons input inputs ih => rw [List.map_cons, outputs, outputs, ih]

theorem length_outputs (f : σ → ι → ο × σ) (s : σ) (inputs : List ι) :
    (outputs f s inputs).length = inputs.length := by
  induction inputs generalizing s with
  | nil => rfl
  | cons input inputs ih => rw [outputs, List.length_cons, List.length_cons, ih]

/-- Where the inputs with a property stand in front, their outputs are those of the machine along
them alone. -/
theorem length_filter_zip_outputs {f : σ → ι → ο × σ} {s : σ} {p : ι → Bool} {q : ο → Bool}
    {inputs : List ι} (h : inputs.filter p = inputs.takeWhile p) :
    ((inputs.zip (outputs f s inputs)).filter fun entry => p entry.1 && q entry.2).length =
      (outputs f s (inputs.filter p)).countP q := by
  induction inputs generalizing s with
  | nil => rfl
  | cons input inputs ih =>
    by_cases hp : p input = true
    · rw [List.filter_cons_of_pos hp, List.takeWhile_cons_of_pos hp] at h
      have hrest := ih (List.cons_inj_right input |>.mp h) (s := (f s input).2)
      rw [List.filter_cons_of_pos hp, outputs, outputs, List.zip_cons_cons, List.countP_cons,
        ← hrest]
      by_cases hq : q (f s input).1 = true
      · rw [List.filter_cons_of_pos (by simp [hp, hq]), List.length_cons, if_pos hq]
      · rw [List.filter_cons_of_neg (by simp [hq]), if_neg hq, Nat.add_zero]
    · rw [List.takeWhile_cons_of_neg hp] at h
      rw [h, outputs, List.countP_nil, List.length_eq_zero_iff, List.filter_eq_nil_iff]
      intro entry hentry
      have hnone := List.filter_eq_nil_iff.mp h entry.1 (List.of_mem_zip hentry).1
      simp [hnone]

section Keys

variable [DecidableEq κ]

/-- A machine for each key. -/
def forEachKey (f : σ → ι → ο × σ) (states : κ → σ) (input : κ × ι) : ο × (κ → σ) :=
  ((f (states input.1) input.2).1,
    Function.update states input.1 (f (states input.1) input.2).2)

/-- Only the machine of the key has moved. -/
theorem forEachKey_snd_self (f : σ → ι → ο × σ) (states : κ → σ) (k : κ) (i : ι) :
    (forEachKey f states (k, i)).2 k = (f (states k) i).2 := Function.update_self ..

theorem forEachKey_snd_of_ne (f : σ → ι → ο × σ) (states : κ → σ) {k k' : κ} (h : k ≠ k') (i : ι) :
    (forEachKey f states (k', i)).2 k = states k := Function.update_of_ne h ..

/-- What belongs to a key. -/
def atKey (k : κ) (labelled : List (κ × ι)) : List ι :=
  (labelled.filter fun entry => entry.1 = k).map Prod.snd

@[simp] theorem atKey_nil (k : κ) : atKey k ([] : List (κ × ι)) = [] := rfl

theorem atKey_cons_self (k : κ) (i : ι) (labelled : List (κ × ι)) :
    atKey k ((k, i) :: labelled) = i :: atKey k labelled := by
  simp [atKey]

theorem atKey_cons_of_ne {k k' : κ} (h : k' ≠ k) (i : ι) (labelled : List (κ × ι)) :
    atKey k ((k', i) :: labelled) = atKey k labelled := by
  simp [atKey, h]

/-- The outputs at a key are those of the machine of that key. -/
theorem outputs_forEachKey (f : σ → ι → ο × σ) (states : κ → σ) (k : κ)
    (inputs : List (κ × ι)) :
    atKey k ((inputs.map Prod.fst).zip (outputs (forEachKey f) states inputs)) =
      outputs f (states k) (atKey k inputs) := by
  induction inputs generalizing states with
  | nil => rfl
  | cons input inputs ih =>
    obtain ⟨k', i⟩ := input
    rw [outputs, List.map_cons, List.zip_cons_cons]
    rcases eq_or_ne k' k with rfl | hne
    · rw [atKey_cons_self, atKey_cons_self, outputs, ih]
      rw [forEachKey_snd_self]
      rfl
    · rw [atKey_cons_of_ne hne, atKey_cons_of_ne hne, ih, forEachKey_snd_of_ne f states hne.symm]

/-- What is counted is counted at some key. -/
theorem countP_eq_sum_atKey (p : ι → Bool) {labelled : List (κ × ι)} {keys : Finset κ}
    (h : ∀ entry ∈ labelled, entry.1 ∈ keys) :
    (labelled.map Prod.snd).countP p = ∑ k ∈ keys, (atKey k labelled).countP p := by
  induction labelled with
  | nil => simp
  | cons entry labelled ih =>
    obtain ⟨k, i⟩ := entry
    have hk : k ∈ keys := h (k, i) List.mem_cons_self
    have hrest := ih fun entry hentry => h entry (List.mem_cons_of_mem _ hentry)
    have hcons : ∀ k', (atKey k' ((k, i) :: labelled)).countP p =
        (atKey k' labelled).countP p + if k = k' then (if p i then 1 else 0) else 0 := by
      intro k'
      rcases eq_or_ne k k' with rfl | hne
      · rw [atKey_cons_self, List.countP_cons, if_pos rfl]
      · rw [atKey_cons_of_ne hne, if_neg hne, Nat.add_zero]
    rw [List.map_cons, List.countP_cons, hrest, Finset.sum_congr rfl fun k' _ => hcons k',
      Finset.sum_add_distrib, Finset.sum_ite_eq, if_pos hk]

/-- Counts that are cut off at a limit sum up to no more than the limit if they are counts of
nothing, of no more than the limit together, or of one key. -/
theorem sum_min_le_iff {keys : Finset κ} {counts : κ → ℕ} {limit : ℕ}
    (h : ∀ k ∈ keys, 0 < counts k) :
    ∑ k ∈ keys, min limit (counts k) ≤ limit ↔
      limit = 0 ∨ ∑ k ∈ keys, counts k ≤ limit ∨ ∀ k ∈ keys, ∀ k' ∈ keys, k = k' := by
  constructor
  · intro hle
    by_contra hnone
    push Not at hnone
    obtain ⟨hlimit, hmany, k, hk, k', hk', hne⟩ := hnone
    by_cases hcapped : ∀ k ∈ keys, counts k ≤ limit
    · have hsum : ∑ k ∈ keys, min limit (counts k) = ∑ k ∈ keys, counts k :=
        Finset.sum_congr rfl fun k hk => min_eq_right (hcapped k hk)
      omega
    · push Not at hcapped
      obtain ⟨full, hfull, hover⟩ := hcapped
      obtain ⟨other, hother, hdifferent⟩ : ∃ other ∈ keys, full ≠ other := by
        rcases eq_or_ne full k with rfl | hfullk
        · exact ⟨k', hk', hne⟩
        · exact ⟨k, hk, hfullk⟩
      have hsubset : ({full, other} : Finset κ) ⊆ keys := by
        intro x hx
        rcases Finset.mem_insert.mp hx with rfl | hx
        · exact hfull
        · rwa [Finset.mem_singleton.mp hx]
      have hpair := Finset.sum_le_sum_of_subset (f := fun k => min limit (counts k)) hsubset
      rw [Finset.sum_pair hdifferent] at hpair
      have hpositive := h other hother
      omega
  · rintro (rfl | hfew | hone)
    · simp
    · exact (Finset.sum_le_sum fun k _ => min_le_right limit (counts k)).trans hfew
    · rcases keys.eq_empty_or_nonempty with rfl | ⟨k, hk⟩
      · exact Nat.zero_le limit
      · have hsingle : keys = {k} :=
          Finset.eq_singleton_iff_unique_mem.mpr ⟨hk, fun k' hk' => hone k' hk' k hk⟩
        rw [hsingle, Finset.sum_singleton]
        exact min_le_left limit (counts k)

end Keys

/-! ## Windows -/

section Windows

variable {T : Type*} [AddMonoid T] [LinearOrder T]

/-- The windows that times are cut into: none is empty, each lasts for the width from its first
time on, and the times of a later window are not before its end. -/
structure IsCut (width : T) (times : List T) (windows : List (List T)) : Prop where
  flatten : windows.flatten = times
  nonempty : ∀ window ∈ windows, window ≠ []
  within : ∀ window ∈ windows, ∀ start ∈ window.head?, ∀ t ∈ window, start ≤ t ∧ t < start + width
  apart : windows.Pairwise fun window later =>
    ∀ start ∈ window.head?, ∀ t ∈ later, start + width ≤ t

/-- One call of a counter: the start of the window that the call falls into, and its rank there. -/
def windowStep (width : T) (state : Option (T × ℕ)) (now : T) : (T × ℕ) × Option (T × ℕ) :=
  match state with
  | some (start, count) =>
    if start + width ≤ now then ((now, 1), some (now, 1))
    else ((start, count + 1), some (start, count + 1))
  | none => ((now, 1), some (now, 1))

/-- The starts and ranks of the calls of a window. -/
def ranks (window : List T) : List (T × ℕ) :=
  match window with
  | [] => []
  | start :: later => (start, 1) :: (List.range later.length).map fun i => (start, i + 2)

/-- A counter goes on in its window, and starts again with the first call behind it. -/
theorem outputs_windowStep_some (width start : T) (count : ℕ) (times : List T) :
    outputs (windowStep width) (some (start, count)) times =
      ((List.range (times.takeWhile (· < start + width)).length).map
          fun i => (start, i + (count + 1))) ++
        outputs (windowStep width) none (times.dropWhile (· < start + width)) := by
  induction times generalizing count with
  | nil => rfl
  | cons now times ih =>
    rcases lt_or_ge now (start + width) with hin | hout
    · have hstep : windowStep width (some (start, count)) now =
          ((start, count + 1), some (start, count + 1)) := if_neg hin.not_ge
      have hrank : ∀ i, i + (count + 1 + 1) = i.succ + (count + 1) := fun i => by omega
      rw [outputs, hstep, ih, List.takeWhile_cons_of_pos (by simpa using hin),
        List.dropWhile_cons_of_pos (by simpa using hin), List.length_cons, List.range_succ_eq_map,
        List.map_cons, List.map_map, List.cons_append, Nat.zero_add]
      congr 2
      refine List.map_congr_left fun i _ => ?_
      rw [Function.comp_apply, hrank]
    · have hstep : windowStep width (some (start, count)) now = windowStep width none now :=
        if_pos hout
      rw [List.takeWhile_cons_of_neg (by simpa using hout),
        List.dropWhile_cons_of_neg (by simpa using hout), List.length_nil, List.range_zero,
        List.map_nil, List.nil_append, outputs, outputs, hstep]

/-- The ranks in a window count its calls. -/
theorem map_snd_ranks {α : Type*} (window : List α) :
    (ranks window).map Prod.snd = (List.range window.length).map (· + 1) := by
  rcases window with _ | ⟨start, later⟩
  · rfl
  · rw [ranks, List.length_cons, List.range_succ_eq_map, List.map_cons, List.map_cons,
      List.map_map, List.map_map]
    rfl

/-- A counter that begins with a call counts on until its window is over. -/
theorem map_snd_outputs_of_within {width : T} {times : List T}
    (h : ∀ first ∈ times.head?, ∀ t ∈ times, t < first + width) :
    (outputs (windowStep width) none times).map Prod.snd =
      (List.range times.length).map (· + 1) := by
  rcases times with _ | ⟨first, later⟩
  · rfl
  · have hall : ∀ t ∈ later, decide (t < first + width) = true := fun t ht =>
      decide_eq_true (h first rfl t (List.mem_cons_of_mem _ ht))
    have hstep : windowStep width none first = ((first, 1), some (first, 1)) := rfl
    rw [outputs, hstep, outputs_windowStep_some, List.takeWhile_eq_self_iff.mpr hall,
      List.dropWhile_eq_nil_iff.mpr hall, outputs, List.append_nil, ← map_snd_ranks, ranks]

/-- How many of the first numbers are below a limit. -/
theorem countP_range_lt (limit n : ℕ) : (List.range n).countP (· < limit) = min limit n := by
  induction n with
  | zero => simp
  | succ n ih =>
    rw [List.range_succ, List.countP_append, ih, List.countP_singleton]
    split
    · rename_i hlt
      have hlt' : n < limit := of_decide_eq_true hlt
      omega
    · rename_i hge
      have hge' : ¬ n < limit := fun hlt => hge (decide_eq_true hlt)
      omega

/-- In order, what is early stands in front. -/
theorem filter_lt_eq_takeWhile {α T : Type*} [LinearOrder T] {time : α → T} {bound : T}
    {entries : List α} (h : (entries.map time).Pairwise (· ≤ ·)) :
    (entries.filter fun entry => time entry < bound) =
      entries.takeWhile fun entry => time entry < bound := by
  induction entries with
  | nil => rfl
  | cons entry entries ih =>
    obtain ⟨hfirst, hlater⟩ := List.pairwise_cons.mp h
    rcases lt_or_ge (time entry) bound with hin | hout
    · rw [List.filter_cons_of_pos (by simpa using hin), List.takeWhile_cons_of_pos (by simpa using hin),
        ih hlater]
    · rw [List.takeWhile_cons_of_neg (by simpa using hout), List.filter_eq_nil_iff]
      intro other hother
      have hle : time entry ≤ time other := by
        rcases List.mem_cons.mp hother with rfl | hmem
        · exact le_rfl
        · exact hfirst _ (List.mem_map_of_mem hmem)
      simpa using hout.trans hle

/-- Times in order are cut into windows within which a counter counts. -/
theorem exists_cut_outputs [AddLeftStrictMono T] {width : T} (hwidth : 0 < width) {times : List T}
    (hsorted : times.Pairwise (· ≤ ·)) :
    ∃ windows, IsCut width times windows ∧
      outputs (windowStep width) none times = windows.flatMap ranks := by
  induction hlength : times.length using Nat.strong_induction_on generalizing times with
  | _ n ih =>
  rcases times with _ | ⟨start, later⟩
  · exact ⟨[], ⟨rfl, by simp, by simp, List.Pairwise.nil⟩, rfl⟩
  · obtain ⟨hstart, hlater⟩ := List.pairwise_cons.mp hsorted
    have hshorter : (later.dropWhile (· < start + width)).length < n := by
      have hle := (List.dropWhile_suffix (l := later) (· < start + width)).length_le
      rw [List.length_cons] at hlength
      omega
    have hrest : (later.dropWhile (· < start + width)).Pairwise (· ≤ ·) :=
      hlater.sublist (List.dropWhile_suffix _).sublist
    obtain ⟨windows, hcut, houtputs⟩ := ih _ hshorter hrest rfl
    have hbehind : ∀ t ∈ later.dropWhile (· < start + width), start + width ≤ t := by
      intro t ht
      rcases hdrop : later.dropWhile (· < start + width) with _ | ⟨first, others⟩
      · rw [hdrop] at ht
        cases ht
      · have hfirst : start + width ≤ first := by
          have hnot := List.head?_dropWhile_not (p := (· < start + width)) later
          rw [hdrop] at hnot
          simpa using hnot
        rw [hdrop] at ht hrest
        rcases List.mem_cons.mp ht with rfl | hmem
        · exact hfirst
        · exact hfirst.trans ((List.pairwise_cons.mp hrest).1 t hmem)
    refine ⟨(start :: later.takeWhile (· < start + width)) :: windows, ⟨?_, ?_, ?_, ?_⟩, ?_⟩
    · rw [List.flatten_cons, hcut.flatten, List.cons_append, List.takeWhile_append_dropWhile]
    · intro window hwindow
      rcases List.mem_cons.mp hwindow with rfl | hmem
      · exact List.cons_ne_nil _ _
      · exact hcut.nonempty window hmem
    · intro window hwindow s hs t ht
      rcases List.mem_cons.mp hwindow with rfl | hmem
      · obtain rfl : start = s := by simpa using hs
        rcases List.mem_cons.mp ht with rfl | htake
        · exact ⟨le_rfl, lt_add_of_pos_right _ hwidth⟩
        · exact ⟨hstart t ((List.takeWhile_prefix _).subset htake),
            by simpa using List.mem_takeWhile_imp htake⟩
      · exact hcut.within window hmem s hs t ht
    · refine List.pairwise_cons.mpr ⟨fun window hmem s hs t ht => ?_, hcut.apart⟩
      obtain rfl : start = s := by simpa using hs
      refine hbehind t ?_
      rw [← hcut.flatten]
      exact List.mem_flatten.mpr ⟨window, hmem, ht⟩
    · have hstep : windowStep width none start = ((start, 1), some (start, 1)) := rfl
      rw [outputs, hstep, outputs_windowStep_some, houtputs, List.flatMap_cons, ranks,
        List.cons_append]

end Windows

end FixedWindow
