import Mathlib.Algebra.Order.Ring.Int
import Mathlib.Data.List.Chain
import Mathlib.Data.List.Perm.Subperm
import Mathlib.Data.List.Sort
import Mathlib.Tactic.Common

/-! Greedy windows over a list: an item joins the open window while it fits
the window's first item, and otherwise opens the next one. For items in the
order of an integer key, with a fixed width, the number of windows is the
length of the longest chain of keys that are a width apart. -/
namespace Taql.Windows

/-- One item of the scan: the windows closed so far, and the open one. -/
def advance (fits : α → α → Bool) (state : List (List α) × List α) (item : α) : List (List α) × List α :=
  match state.2 with
  | [] => (state.1, [item])
  | base :: rest =>
    if fits base item then (state.1, base :: rest ++ [item]) else (state.1 ++ [base :: rest], [item])

/-- The scan of a whole list, from no windows at all. -/
def scan (fits : α → α → Bool) (items : List α) : List (List α) × List α :=
  items.foldl (advance fits) ([], [])

/-- Every window of the list, the one left open at its end included. -/
def windows (fits : α → α → Bool) (items : List α) : List (List α) :=
  (scan fits items).1 ++ if (scan fits items).2.isEmpty then [] else [(scan fits items).2]

/-- What a greedy split is, independently of how it is computed: each window
is as long as its first item allows. -/
inductive Splits (fits : α → α → Bool) : List α → List (List α) → Prop where
  | nil : Splits fits [] []
  | cons (base : α) (rest : List α) (fit : ∀ item ∈ rest, fits base item = true)
      (stop : ∀ next ∈ later.head?, fits base next = false) (below : Splits fits later split) :
      Splits fits (base :: rest ++ later) ((base :: rest) :: split)

private theorem scan_from (fits : α → α → Bool) (items : List α) (closed : List (List α))
    (base : α) (rest : List α) (fit : ∀ item ∈ rest, fits base item = true) :
    ∃ split last, items.foldl (advance fits) (closed, base :: rest) = (closed ++ split, last) ∧ last ≠ [] ∧
      Splits fits (base :: rest ++ items) (split ++ [last]) := by
  induction items generalizing closed base rest with
  | nil =>
    have alone : Splits fits (base :: rest ++ []) [base :: rest] := .cons base rest fit (by simp) .nil
    exact ⟨[], base :: rest, by simp, by simp, alone⟩
  | cons item items ih =>
    by_cases joins : fits base item = true
    · obtain ⟨split, last, ran, open_, greedy⟩ := ih closed base (rest ++ [item]) (by
        intro other member
        rcases List.mem_append.mp member with member | member
        · exact fit other member
        · rwa [List.mem_singleton.mp member])
      refine ⟨split, last, ?_, open_, by simpa using greedy⟩
      simpa [advance, joins] using ran
    · obtain ⟨split, last, ran, open_, greedy⟩ := ih (closed ++ [base :: rest]) item [] (by simp)
      refine ⟨(base :: rest) :: split, last, ?_, open_, ?_⟩
      · simpa [advance, joins] using ran
      · exact .cons base rest fit (by simpa using joins) (by simpa using greedy)

/-- The scan computes the greedy split, and what it has closed is all of the
split but the last window. -/
theorem scan_splits (fits : α → α → Bool) (items : List α) :
    Splits fits items (windows fits items) ∧ (scan fits items).1 = (windows fits items).dropLast := by
  cases items with
  | nil => exact ⟨.nil, rfl⟩
  | cons item items =>
    obtain ⟨split, last, ran, open_, greedy⟩ := scan_from fits items [] item [] (by simp)
    have ran : scan fits (item :: items) = (split, last) := by simpa [scan, advance] using ran
    have all : windows fits (item :: items) = split ++ [last] := by simp [windows, ran, open_]
    exact ⟨by simpa [all] using greedy, by simp [all, ran]⟩

theorem windows_splits (fits : α → α → Bool) (items : List α) : Splits fits items (windows fits items) :=
  (scan_splits fits items).1

theorem closed_eq_dropLast (fits : α → α → Bool) (items : List α) :
    (scan fits items).1 = (windows fits items).dropLast :=
  (scan_splits fits items).2

/-- The windows are the list, cut. -/
theorem Splits.flatten (greedy : Splits fits items split) : split.flatten = items := by
  induction greedy with
  | nil => rfl
  | cons base rest fit stop below ih => simp [ih]

theorem Splits.nonempty (greedy : Splits fits items split) : ∀ window ∈ split, window ≠ [] := by
  induction greedy with
  | nil => simp
  | cons base rest fit stop below ih => simpa using ih

/-- Everything in a window fits the window's first item. -/
theorem Splits.fits_base (greedy : Splits fits items split) (member : base :: rest ∈ split) :
    ∀ item ∈ rest, fits base item = true := by
  induction greedy with
  | nil => cases member
  | cons first others fit stop below ih =>
    rcases List.mem_cons.mp member with same | member
    · cases same
      exact fit
    · exact ih member

/-! ### Where windows open -/

/-- The positions at which windows open: the first, and after each of them that of the next
item that does not fit the one there. -/
inductive Opens (fits : α → α → Bool) (items : List α) : Nat → Prop where
  | first (filled : items ≠ []) : Opens fits items 0
  | next {start stop : Nat} {base item : α} (opens : Opens fits items start) (after : start < stop)
      (baseAt : items[start]? = some base) (itemAt : items[stop]? = some item)
      (fit : ∀ k other, start < k → k < stop → items[k]? = some other → fits base other = true)
      (refused : fits base item = false) : Opens fits items stop

/-- There are three windows or more, and a position is the first of one or in the last. -/
def Divides (fits : α → α → Bool) (items : List α) (position : Nat) : Prop :=
  (∃ low middle high, low < middle ∧ middle < high ∧
      Opens fits items low ∧ Opens fits items middle ∧ Opens fits items high) ∧
    (Opens fits items position ∨ ∀ start, Opens fits items start → start < position)

section Opens
variable {fits : α → α → Bool} {base : α} {rest later : List α}

private theorem getElem?_later (base : α) (rest later : List α) (k : Nat) :
    (base :: rest ++ later)[rest.length + 1 + k]? = later[k]? := by
  rw [List.getElem?_append_right (by simp), List.length_cons, Nat.add_sub_cancel_left]

private theorem opens_later (fit : ∀ item ∈ rest, fits base item = true)
    (stop : ∀ next ∈ later.head?, fits base next = false) {position : Nat} (opens : Opens fits later position) :
    Opens fits (base :: rest ++ later) (rest.length + 1 + position) := by
  induction opens with
  | first filled =>
    obtain ⟨next, others, rfl⟩ := List.exists_cons_of_ne_nil filled
    refine .next (.first (by simp)) (Nat.succ_pos _) rfl (getElem?_later base rest _ 0) ?_ (stop next rfl)
    intro k other after before at_
    rw [List.getElem?_append_left (by simp; omega)] at at_
    obtain ⟨k, rfl⟩ : ∃ earlier, k = earlier + 1 := ⟨k - 1, by omega⟩
    rw [List.getElem?_cons_succ] at at_
    exact fit other (List.mem_of_getElem? at_)
  | next opens after baseAt itemAt fit' refused ih =>
    refine .next ih (by omega) ((getElem?_later ..).trans baseAt) ((getElem?_later ..).trans itemAt) ?_ refused
    intro k other above below at_
    obtain ⟨k, rfl⟩ : ∃ inner, k = rest.length + 1 + inner := ⟨k - (rest.length + 1), by omega⟩
    rw [getElem?_later] at at_
    exact fit' k other (by omega) (by omega) at_

/-- The windows of a list open with its first one, and where those of what follows it do. -/
theorem opens_append_iff (fit : ∀ item ∈ rest, fits base item = true)
    (stop : ∀ next ∈ later.head?, fits base next = false) (position : Nat) :
    Opens fits (base :: rest ++ later) position ↔
      position = 0 ∨ ∃ after, Opens fits later after ∧ position = rest.length + 1 + after := by
  constructor
  · intro opens
    induction opens with
    | first => exact .inl rfl
    | @next start position base' item opens after baseAt itemAt fit' refused ih =>
      refine .inr ?_
      rcases ih with rfl | ⟨inner, opensLater, rfl⟩
      · obtain rfl : base = base' := by simpa using baseAt
        -- What the first window refuses first is what follows it.
        have beyond : rest.length + 1 ≤ position := by
          by_contra inside
          obtain ⟨k, rfl⟩ : ∃ k, position = k + 1 := ⟨position - 1, by omega⟩
          rw [List.getElem?_append_left (by simp; omega), List.getElem?_cons_succ] at itemAt
          rw [fit item (List.mem_of_getElem? itemAt)] at refused
          cases refused
        have filled : later ≠ [] := by
          rintro rfl
          rw [List.append_nil, List.getElem?_eq_none (by simpa using beyond)] at itemAt
          cases itemAt
        refine ⟨0, .first filled, ?_⟩
        by_contra further
        obtain ⟨next, others, rfl⟩ := List.exists_cons_of_ne_nil filled
        have fitting := fit' (rest.length + 1) next (Nat.succ_pos _) (by omega) (by simp)
        rw [stop next rfl] at fitting
        cases fitting
      · obtain ⟨stop', rfl⟩ : ∃ stop', position = rest.length + 1 + stop' := ⟨position - (rest.length + 1), by omega⟩
        rw [getElem?_later] at baseAt itemAt
        refine ⟨stop', .next opensLater (by omega) baseAt itemAt (fun k other above below at_ => ?_) refused, rfl⟩
        exact fit' (rest.length + 1 + k) other (by omega) (by omega) ((getElem?_later base rest later k).trans at_)
  · rintro (rfl | ⟨after, opens, rfl⟩)
    · exact .first (by simp)
    · exact opens_later fit stop opens

theorem Opens.lt {items : List α} {position : Nat} (opens : Opens fits items position) : position < items.length := by
  cases opens with
  | first filled => exact List.length_pos_iff.mpr filled
  | next _ _ _ itemAt => exact (List.getElem?_eq_some_iff.mp itemAt).1

/-- As many windows open as there are. -/
theorem Splits.starts {items : List α} {split : List (List α)} (greedy : Splits fits items split) :
    ∃ starts : List Nat, starts.length = split.length ∧ starts.Pairwise (· < ·) ∧
      ∀ position, position ∈ starts ↔ Opens fits items position := by
  induction greedy with
  | nil =>
    exact ⟨[], rfl, .nil, fun position => iff_of_false List.not_mem_nil fun opens =>
      absurd opens.lt (Nat.not_lt_zero _)⟩
  | cons base rest fit stop below ih =>
    obtain ⟨starts, counted, increasing, opened⟩ := ih
    refine ⟨0 :: starts.map (rest.length + 1 + ·), by simp [counted], ?_, fun position => ?_⟩
    · refine List.pairwise_cons.mpr ⟨?_, List.pairwise_map.mpr (increasing.imp fun before => by omega)⟩
      intro start listed
      obtain ⟨inner, _, rfl⟩ := List.mem_map.mp listed
      omega
    · rw [opens_append_iff fit stop, List.mem_cons, List.mem_map]
      simp only [opened, eq_comm]

theorem Splits.three_iff {items : List α} {split : List (List α)} (greedy : Splits fits items split) :
    (∃ low middle high, low < middle ∧ middle < high ∧
      Opens fits items low ∧ Opens fits items middle ∧ Opens fits items high) ↔ 2 < split.length := by
  obtain ⟨starts, counted, increasing, opened⟩ := greedy.starts
  simp only [← opened, ← counted]
  constructor
  · rintro ⟨low, middle, high, first, second, lowIn, middleIn, highIn⟩
    have distinct : [low, middle, high].Nodup := by simp; omega
    have listed : [low, middle, high] ⊆ starts := by simp [lowIn, middleIn, highIn]
    exact (distinct.subperm listed).length_le
  · intro many
    match starts, many, increasing with
    | low :: middle :: high :: _, _, increasing =>
      obtain ⟨first, increasing⟩ := List.pairwise_cons.mp increasing
      exact ⟨low, middle, high, first middle (by simp), (List.pairwise_cons.mp increasing).1 high (by simp), by simp⟩

/-- A relation holds of the neighbours in every window but the last when it does of all
neighbours between which no window opens, those in the last window apart. -/
theorem Splits.chain_dropLast_iff {related : α → α → Prop} {items : List α} {split : List (List α)}
    (greedy : Splits fits items split) :
    (∀ window ∈ split.dropLast, window.IsChain related) ↔
      ∀ (position : Nat) one other, items[position]? = some one → items[position + 1]? = some other →
        related one other ∨ Opens fits items (position + 1) ∨
          ∀ start, Opens fits items start → start < position + 1 := by
  induction greedy with
  | nil => simp
  | @cons later split base rest fit stop below ih =>
    have opens := opens_append_iff fit stop
    cases split with
    | nil =>
      -- There is one window, and nothing after it.
      cases below
      refine iff_of_true (by simp) fun position one other _ _ => .inr (.inr fun start opened => ?_)
      rcases (opens start).mp opened with rfl | ⟨after, opened, _⟩
      · exact Nat.succ_pos _
      · exact absurd opened.lt (Nat.not_lt_zero _)
    | cons window split =>
      have filled : later ≠ [] := by
        rintro rfl
        cases below
      rw [List.dropLast_cons_of_ne_nil (List.cons_ne_nil _ _), List.forall_mem_cons, ih, List.isChain_iff_getElem]
      constructor
      · rintro ⟨here, there⟩ position one other oneAt otherAt
        rcases Nat.lt_trichotomy position rest.length with inside | rfl | beyond
        · rw [List.getElem?_append_left (by simp; omega)] at oneAt otherAt
          obtain ⟨_, rfl⟩ := List.getElem?_eq_some_iff.mp oneAt
          obtain ⟨within, rfl⟩ := List.getElem?_eq_some_iff.mp otherAt
          exact .inl (here position within)
        · exact .inr (.inl ((opens _).mpr (.inr ⟨0, .first filled, rfl⟩)))
        · obtain ⟨inner, rfl⟩ : ∃ inner, position = rest.length + 1 + inner := ⟨position - (rest.length + 1), by omega⟩
          rw [Nat.add_assoc _ inner, getElem?_later] at otherAt
          rw [getElem?_later] at oneAt
          rcases there inner one other oneAt otherAt with holds | first | last
          · exact .inl holds
          · exact .inr (.inl ((opens _).mpr (.inr ⟨inner + 1, first, rfl⟩)))
          · refine .inr (.inr fun start opened => ?_)
            rcases (opens start).mp opened with rfl | ⟨after, openedLater, rfl⟩
            · exact Nat.succ_pos _
            · have below := last after openedLater
              omega
      · intro all
        constructor
        · intro position inside
          have oneAt := List.getElem?_eq_getElem (Nat.lt_of_succ_lt inside)
          have otherAt := List.getElem?_eq_getElem inside
          rw [← List.getElem?_append_left (Nat.lt_of_succ_lt inside)] at oneAt
          rw [← List.getElem?_append_left inside] at otherAt
          rcases all position _ _ oneAt otherAt with holds | first | last
          · exact holds
          · rcases (opens _).mp first with none_ | ⟨after, _, same⟩
            · cases none_
            · simp only [List.length_cons] at inside
              omega
          · have below := last (rest.length + 1) ((opens _).mpr (.inr ⟨0, .first filled, rfl⟩))
            simp only [List.length_cons] at inside
            omega
        · intro position one other oneAt otherAt
          rcases all (rest.length + 1 + position) one other ((getElem?_later ..).trans oneAt)
            ((getElem?_later base rest later (position + 1)).trans otherAt) with holds | first | last
          · exact .inl holds
          · rcases (opens _).mp first with none_ | ⟨after, opened, same⟩
            · cases none_
            · obtain rfl : position + 1 = after := by omega
              exact .inr (.inl opened)
          · refine .inr (.inr fun start opened => ?_)
            have below := last _ ((opens _).mpr (.inr ⟨start, opened, rfl⟩))
            omega

/-- Of the parts into which a list is broken where it has three windows, neighbours are
related exactly when all neighbours are between which there is no division. -/
theorem parts_chain_iff {related : α → α → Prop} (fits : α → α → Bool) (items : List α) :
    (2 < (windows fits items).length → ∀ window ∈ (windows fits items).dropLast, window.IsChain related) ∧
        ((windows fits items).length ≤ 2 → items.IsChain related) ↔
      ∀ (position : Nat) one other, items[position]? = some one → items[position + 1]? = some other →
        related one other ∨ Divides fits items (position + 1) := by
  have greedy := windows_splits fits items
  by_cases many : 2 < (windows fits items).length
  · have three := greedy.three_iff.mpr many
    simp only [many, true_implies, Divides, three, true_and, greedy.chain_dropLast_iff]
    exact and_iff_left fun few => absurd few (by omega)
  · have few : ¬ _ := fun three => many (greedy.three_iff.mp three)
    simp only [Divides, few, false_and, or_false, many, false_implies, true_and, Nat.le_of_not_lt many, true_implies]
    rw [List.isChain_iff_getElem]
    constructor
    · intro all position one other oneAt otherAt
      obtain ⟨_, rfl⟩ := List.getElem?_eq_some_iff.mp oneAt
      obtain ⟨inside, rfl⟩ := List.getElem?_eq_some_iff.mp otherAt
      exact all position inside
    · intro all position inside
      exact all position _ _ (List.getElem?_eq_getElem _) (List.getElem?_eq_getElem _)

end Opens

section Keyed
variable {key : α → Int} {width : Int} {fits : α → α → Bool}

/-- Keys in increasing order, each at least a width after the one before. -/
def Spaced (width : Int) (keys : List Int) : Prop :=
  keys.IsChain fun earlier later => earlier ≤ later ∧ earlier + width ≤ later

/-- Some `count` of the keys are spaced a width apart. -/
def SpacedIn (width : Int) (keys : List Int) (count : Nat) : Prop :=
  ∃ chain : List Int, chain.Subperm keys ∧ chain.length = count ∧ Spaced width chain

theorem SpacedIn.perm (spaced : SpacedIn width keys count) (permuted : keys.Perm keys') :
    SpacedIn width keys' count := by
  obtain ⟨chain, within, length, apart⟩ := spaced
  exact ⟨chain, within.trans permuted.subperm, length, apart⟩

/-- A longer chain holds every shorter one. -/
theorem SpacedIn.mono (spaced : SpacedIn width keys count) (fewer : count' ≤ count) :
    SpacedIn width keys count' := by
  obtain ⟨chain, within, length, apart⟩ := spaced
  refine ⟨chain.take count', (List.take_sublist _ _).subperm.trans within, ?_, apart.take _⟩
  simp only [List.length_take]
  omega

theorem SpacedIn.count_le (spaced : SpacedIn width keys count) : count ≤ keys.length := by
  obtain ⟨chain, within, rfl, _⟩ := spaced
  exact within.length_le

/-- Keys are pairwise less than a width apart when no two are spaced by it. -/
theorem pairwise_near_iff (width : Int) (keys : List Int) :
    keys.Pairwise (fun first second => |first - second| < width) ↔ ¬ SpacedIn width keys 2 := by
  constructor
  · rintro near ⟨chain, ⟨kept, permuted, within⟩, length, apart⟩
    obtain ⟨low, high, rfl⟩ := List.length_eq_two.mp length
    have symmetric : ∀ {first second : Int}, |first - second| < width → |second - first| < width := by
      intro first second narrow
      rwa [abs_sub_comm]
    have close := (permuted.pairwise_iff symmetric).mp (near.sublist within)
    have narrow : |low - high| < width := (List.pairwise_cons.mp close).1 high (by simp)
    have wide : low ≤ high ∧ low + width ≤ high := by simpa [Spaced] using apart
    rw [abs_lt] at narrow
    omega
  · intro unspaced
    rw [List.pairwise_iff_forall_sublist]
    intro first second within
    by_contra wide
    rw [abs_lt] at wide
    apply unspaced
    rcases Int.le_total first second with low | low
    · exact ⟨[first, second], within.subperm, rfl, by simp only [Spaced, List.isChain_pair]; omega⟩
    · refine ⟨[second, first], ?_, rfl, by simp only [Spaced, List.isChain_pair]; omega⟩
      exact (List.Perm.swap first second []).subperm.trans within.subperm

private theorem spaced_bases (byKey : ∀ first ∈ items, ∀ second ∈ items,
      fits first second = decide (key second - key first < width))
    (sorted : items.Pairwise fun first second => key first ≤ key second)
    (greedy : Splits fits items split) :
    ∃ chain : List Int, chain.Sublist (items.map key) ∧ chain.length = split.length ∧ Spaced width chain ∧
      chain.head? = items.head?.map key := by
  induction greedy with
  | nil => exact ⟨[], by simp [Spaced]⟩
  | @cons later split base rest fit stop below ih =>
    have included : ∀ item ∈ later, item ∈ base :: rest ++ later := by simp +contextual
    obtain ⟨chain, within, length, apart, start⟩ :=
      ih (fun first firstIn second secondIn => byKey first (included first firstIn) second (included second secondIn))
        (List.pairwise_append.mp sorted).2.1
    refine ⟨key base :: chain, ?_, by simp [length], ?_, by simp⟩
    · rw [List.map_append, List.map_cons]
      exact List.Sublist.cons_cons (key base) (within.trans (List.sublist_append_right (rest.map key) _))
    · refine List.isChain_cons.mpr ⟨?_, apart⟩
      intro next first
      rw [start] at first
      cases shape : later with
      | nil => simp [shape] at first
      | cons item later =>
        subst shape
        simp only [List.head?_cons, Option.map_some, Option.mem_some_iff] at first
        subst first
        have ordered : key base ≤ key item :=
          (List.pairwise_append.mp sorted).2.2 base (by simp) item (by simp)
        have refused := stop item (by simp)
        rw [byKey base (by simp) item (by simp)] at refused
        simp only [decide_eq_false_iff_not, not_lt] at refused
        exact ⟨ordered, by omega⟩

private theorem spaced_window (base : α) (rest : List α)
    (byKey : ∀ item ∈ rest, key item - key base < width)
    (sorted : ∀ item ∈ rest, key base ≤ key item)
    (within : chain.Sublist ((base :: rest).map key)) (apart : Spaced width chain) : chain.length ≤ 1 := by
  match chain, within, apart with
  | [], _, _ => simp
  | [_], _, _ => simp
  | first :: second :: _, within, apart =>
    exfalso
    have apart := (List.isChain_cons_cons.mp apart).1
    have pair : [first, second].Sublist ((base :: rest).map key) :=
      (List.sublist_append_left [first, second] _).trans within
    rw [List.map_cons] at pair
    have low : key base ≤ first := by
      rcases List.mem_cons.mp (pair.subset (by simp : first ∈ [first, second])) with same | member
      · exact same.ge
      · obtain ⟨item, held, rfl⟩ := List.mem_map.mp member
        exact sorted item held
    have inRest : second ∈ rest.map key := by
      cases pair with
      | cons _ below => exact below.subset (by simp)
      | cons_cons _ below => exact below.subset (by simp)
    obtain ⟨item, member, rfl⟩ := List.mem_map.mp inRest
    have near := byKey item member
    omega

private theorem spaced_length (byKey : ∀ first ∈ items, ∀ second ∈ items,
      fits first second = decide (key second - key first < width))
    (sorted : items.Pairwise fun first second => key first ≤ key second)
    (greedy : Splits fits items split) (chain : List Int) (within : chain.Sublist (items.map key))
    (apart : Spaced width chain) : chain.length ≤ split.length := by
  induction greedy generalizing chain with
  | nil => simpa using within.length_le
  | @cons later split base rest fit stop below ih =>
    obtain ⟨front, back, rfl, frontIn, backIn⟩ := List.sublist_append_iff.mp (List.map_append ▸ within)
    have front1 : front.length ≤ 1 := by
      refine spaced_window base rest ?_ ?_ frontIn (List.isChain_append.mp apart).1
      · intro item member
        have near := fit item member
        rw [byKey base (by simp) item (by simp [member])] at near
        simpa using near
      · intro item member
        exact (List.pairwise_cons.mp sorted).1 item (by simp [member])
    have included : ∀ item ∈ later, item ∈ base :: rest ++ later := by simp +contextual
    have backs := ih (fun first firstIn second secondIn =>
      byKey first (included first firstIn) second (included second secondIn))
      (List.pairwise_append.mp sorted).2.1 back backIn (List.isChain_append.mp apart).2.1
    simp only [List.length_append, List.length_cons]
    omega

/-- For items in key order, there are at least `count` windows exactly when
`count` of the keys are spaced a width apart. -/
theorem le_length_windows_iff (byKey : ∀ first ∈ items, ∀ second ∈ items,
      fits first second = decide (key second - key first < width))
    (sorted : items.Pairwise fun first second => key first ≤ key second) (count : Nat) :
    count ≤ (windows fits items).length ↔ SpacedIn width (items.map key) count := by
  have greedy := windows_splits fits items
  constructor
  · intro enough
    obtain ⟨chain, within, length, apart, _⟩ := spaced_bases byKey sorted greedy
    exact SpacedIn.mono ⟨chain, within.subperm, length, apart⟩ enough
  · rintro ⟨chain, within, rfl, apart⟩
    have chainSorted : chain.Pairwise (· ≤ ·) :=
      List.isChain_iff_pairwise.mp (apart.imp fun _ _ ordered => ordered.1)
    have keysSorted : (items.map key).Pairwise (· ≤ ·) := List.pairwise_map.mpr sorted
    exact spaced_length byKey sorted greedy chain
      (List.sublist_of_subperm_of_pairwise within chainSorted keysSorted) apart

/-- Two items of one window have keys less than a width apart. -/
theorem window_narrow (byKey : ∀ first ∈ items, ∀ second ∈ items,
      fits first second = decide (key second - key first < width))
    (sorted : items.Pairwise fun first second => key first ≤ key second)
    (greedy : Splits fits items split) (member : window ∈ split) :
    window.Pairwise fun first second => |key first - key second| < width := by
  obtain ⟨before, after, shape⟩ := List.append_of_mem member
  have whole := greedy.flatten
  subst shape
  simp only [List.flatten_append, List.flatten_cons] at whole
  cases window with
  | nil => exact List.Pairwise.nil
  | cons base rest =>
    have inside : ∀ item ∈ base :: rest, item ∈ items := by
      intro item held
      rw [← whole]
      simp only [List.mem_append]
      exact .inr (.inl held)
    have ordered : (base :: rest).Pairwise fun first second => key first ≤ key second := by
      rw [← whole] at sorted
      exact (List.pairwise_append.mp (List.pairwise_append.mp sorted).2.1).1
    have near : ∀ item ∈ rest, key base ≤ key item ∧ key item - key base < width := by
      intro item held
      have fit := greedy.fits_base member item held
      rw [byKey base (inside base (by simp)) item (inside item (by simp [held]))] at fit
      exact ⟨(List.pairwise_cons.mp ordered).1 item held, by simpa using fit⟩
    refine List.pairwise_cons.mpr ⟨?_, ?_⟩
    · intro item held
      obtain ⟨low, high⟩ := near item held
      rw [abs_lt]
      omega
    · apply (List.pairwise_cons.mp ordered).2.imp_of_mem
      intro first second firstIn secondIn _
      obtain ⟨lowFirst, highFirst⟩ := near first firstIn
      obtain ⟨lowSecond, highSecond⟩ := near second secondIn
      rw [abs_lt]
      omega

end Keyed

end Taql.Windows
