import Mathlib.Data.List.Nodup
import Mathlib.Data.List.Perm.Subperm

/-!
Pages cut by an offset from a list that is sorted anew for each of them.
-/
namespace Paging
variable {A : Type}

structure Page (A : Type) where
  items : List A
  total : Nat
  nextOffset : Option Nat
  deriving DecidableEq, Repr

def slice (l : List A) (offset limit : Nat) : Page A :=
  let total := l.length
  let start := min offset total
  let stop := min (start + limit) total
  { items := (l.drop start).take (stop - start)
    total
    nextOffset := if stop < total then some stop else none }

/-- What the pages from an offset on hold together, when each page is asked for at the offset
    that the page before it names; the requests are numbered. -/
inductive Follows (answer : Nat → Nat → Option (Page A)) : Nat → Nat → List A → Prop where
  | last {k offset : Nat} {page : Page A} (answered : answer k offset = some page)
      (ends : page.nextOffset = none) : Follows answer k offset page.items
  | more {k offset next : Nat} {page : Page A} {rest : List A}
      (answered : answer k offset = some page) (goes : page.nextOffset = some next)
      (later : Follows answer (k + 1) next rest) : Follows answer k offset (page.items ++ rest)

theorem Follows.unique {answer : Nat → Nat → Option (Page A)} {k offset : Nat} {as bs : List A}
    (first : Follows answer k offset as) (second : Follows answer k offset bs) : as = bs := by
  induction first generalizing bs with
  | last answered ends =>
    cases second with
    | last answered' ends' =>
      cases answered.symm.trans answered'
      rfl
    | more answered' goes' later' =>
      cases answered.symm.trans answered'
      cases ends.symm.trans goes'
  | more answered goes later ih =>
    cases second with
    | last answered' ends' =>
      cases answered.symm.trans answered'
      cases goes.symm.trans ends'
    | more answered' goes' later' =>
      cases answered.symm.trans answered'
      cases goes.symm.trans goes'
      rw [ih later']

/-! Pages of lists of one length -/

def piece (l : List A) (limit j : Nat) : List A := (l.drop (j * limit)).take limit

/-- The pages from number `k` on, each cut from a list of its own. -/
def pieces (lists : Nat → List A) (limit k n : Nat) : List A :=
  (List.range' k n).flatMap (fun j => piece (lists j) limit j)

theorem slice_items (l : List A) (limit j : Nat) (room : j * limit ≤ l.length) :
    (slice l (j * limit) limit).items = piece l limit j := by
  simp only [slice, piece, Nat.min_eq_left room]
  rw [List.take_eq_take_iff, List.length_drop]
  omega

theorem slice_next (l : List A) (limit j : Nat) (room : j * limit ≤ l.length) :
    (slice l (j * limit) limit).nextOffset =
      if (j + 1) * limit < l.length then some ((j + 1) * limit) else none := by
  have stop : j * limit + limit = (j + 1) * limit := by rw [Nat.add_one_mul]
  simp only [slice, Nat.min_eq_left room, stop]
  by_cases more : (j + 1) * limit < l.length
  · rw [if_pos more, Nat.min_eq_left (Nat.le_of_lt more), if_pos more]
  · rw [if_neg more, Nat.min_eq_right (Nat.not_lt.mp more), if_neg (Nat.lt_irrefl _)]

theorem follows_pieces {lists : Nat → List A} {total limit : Nat} (pos : 0 < limit)
    (same : ∀ k, (lists k).length = total) (k : Nat) (room : k * limit ≤ total) :
    ∃ n, Follows (fun k offset => some (slice (lists k) offset limit)) k (k * limit)
      (pieces lists limit k n) ∧ total ≤ (k + n) * limit := by
  induction left : total - k * limit using Nat.strongRecOn generalizing k with
  | _ left ih =>
    have next := slice_next (lists k) limit k (by rw [same]; exact room)
    have items := slice_items (lists k) limit k (by rw [same]; exact room)
    have stop : (k + 1) * limit = k * limit + limit := Nat.add_one_mul k limit
    by_cases more : (k + 1) * limit < total
    · rw [if_pos (by rw [same]; exact more)] at next
      obtain ⟨n, later, covers⟩ :=
        ih (total - (k + 1) * limit) (by omega) (k + 1) (Nat.le_of_lt more) rfl
      refine ⟨n + 1, ?_, ?_⟩
      · have joined : Follows (fun k offset => some (slice (lists k) offset limit)) k (k * limit)
            ((slice (lists k) (k * limit) limit).items ++ pieces lists limit (k + 1) n) :=
          .more rfl next later
        rw [items] at joined
        rw [pieces, List.range'_succ, List.flatMap_cons]
        exact joined
      · rw [show k + (n + 1) = k + 1 + n by omega]
        exact covers
    · rw [if_neg (by rw [same]; exact more)] at next
      refine ⟨1, ?_, Nat.not_lt.mp more⟩
      have ends : Follows (fun k offset => some (slice (lists k) offset limit)) k (k * limit)
          (slice (lists k) (k * limit) limit).items :=
        .last rfl next
      rw [items] at ends
      simpa [pieces] using ends

theorem pieces_of_one (l : List A) (limit n : Nat) :
    pieces (fun _ => l) limit 0 n = l.take (n * limit) := by
  induction n with
  | zero => simp [pieces]
  | succ n ih =>
    have last : pieces (fun _ => l) limit 0 (n + 1) =
        pieces (fun _ => l) limit 0 n ++ piece l limit n := by
      simp [pieces, List.range'_concat]
    rw [last, ih, Nat.add_one_mul, List.take_add]
    rfl

/-! Sorted lists -/

section Sorted
variable {le : A → A → Bool}

/-- No two items on either side of the end of a page are equal in the order. -/
def Separated (le : A → A → Bool) (l : List A) (limit : Nat) : Prop :=
  ∀ b x y, 0 < b → limit ∣ b → l[b - 1]? = some x → l[b]? = some y → le y x = false

def tiesAt (le : A → A → Bool) (l : List A) (b : Nat) : Bool :=
  match l[b - 1]?, l[b]? with
  | some x, some y => le y x
  | _, _ => false

instance (le : A → A → Bool) (l : List A) (limit : Nat) : Decidable (Separated le l limit) :=
  decidable_of_iff (∀ b < l.length, 0 < b → limit ∣ b → tiesAt le l b = false) (by
    constructor
    · intro each b x y pos end_ before after
      have apart := each b (List.getElem?_eq_some_iff.mp after).1 pos end_
      rw [tiesAt, before, after] at apart
      exact apart
    · intro each b _ pos end_
      rw [tiesAt]
      split
      · rename_i x y before after
        exact each b x y pos end_ before after
      · rfl)

/-- Sorted items on either side of a position stand as those next to it do. -/
theorem apart_of_neighbours (trans : ∀ a b c, le a b → le b c → le a c) {l : List A}
    (sorted : l.Pairwise (le · ·)) {b : Nat} {x y : A} (pos : 0 < b)
    (before : l[b - 1]? = some x) (after : l[b]? = some y) (apart : le y x = false) :
    ∀ u ∈ l.take b, ∀ v ∈ l.drop b, le v u = false := by
  intro u low v high
  obtain ⟨i, small, rfl⟩ := List.mem_take_iff_getElem.mp low
  obtain ⟨j, large, rfl⟩ := List.mem_drop_iff_getElem.mp high
  obtain ⟨room, rfl⟩ := List.getElem?_eq_some_iff.mp before
  obtain ⟨room', rfl⟩ := List.getElem?_eq_some_iff.mp after
  by_contra back
  rw [Bool.not_eq_false] at back
  rw [List.pairwise_iff_getElem] at sorted
  have down : le l[b] l[i] = true := by
    by_cases here : j = 0
    · subst here
      simpa using back
    · exact trans _ _ _ (sorted b (b + j) room' (by omega) (by omega)) (by
        simpa [Nat.add_comm] using back)
  have up : le l[b] l[b - 1] = true := by
    by_cases here : i = b - 1
    · subst here
      exact down
    · exact trans _ _ _ down (sorted i (b - 1) (by omega) room (by omega))
  rw [up] at apart
  cases apart

/-- Where the order tells the two sides of a position apart, every sorted order of the same
    items has the same items before it. -/
theorem take_perm {l m : List A} (sorted : m.Pairwise (le · ·)) (perm : l.Perm m)
    (nodup : l.Nodup) {b : Nat} (apart : ∀ u ∈ l.take b, ∀ v ∈ l.drop b, le v u = false) :
    (l.take b).Perm (m.take b) := by
  have lengths : (l.take b).length = (m.take b).length := by
    rw [List.length_take, List.length_take, perm.length_eq]
  have inside : m.take b ⊆ l.take b := by
    intro v member
    by_contra outside
    have vl : v ∈ l := perm.mem_iff.mpr (List.mem_of_mem_take member)
    have late : v ∈ l.drop b := by
      rw [← List.take_append_drop b l, List.mem_append] at vl
      exact vl.resolve_left outside
    obtain ⟨u, early, gone⟩ : ∃ u ∈ l.take b, u ∉ m.take b := by
      by_contra none_
      have subset : l.take b ⊆ m.take b := by
        intro u early
        by_contra gone
        exact none_ ⟨u, early, gone⟩
      have whole := (List.subperm_of_subset (nodup.sublist (List.take_sublist b l)) subset)
        |>.perm_of_length_le (Nat.le_of_eq lengths.symm)
      exact outside (whole.mem_iff.mpr member)
    have um : u ∈ m := perm.mem_iff.mp (List.mem_of_mem_take early)
    have after : u ∈ m.drop b := by
      rw [← List.take_append_drop b m, List.mem_append] at um
      exact um.resolve_left gone
    have below := (List.pairwise_append.mp ((List.take_append_drop b m).symm ▸ sorted)).2.2
      v member u after
    rw [apart u early v late] at below
    cases below
  have nodup' := (perm.nodup_iff.mp nodup).sublist (List.take_sublist b m)
  exact ((List.subperm_of_subset nodup' inside).perm_of_length_le (Nat.le_of_eq lengths)).symm

/-- Two sorted orders of the same items have the same items on each page. -/
theorem piece_perm (trans : ∀ a b c, le a b → le b c → le a c) {l m : List A} {limit : Nat}
    (sorted : l.Pairwise (le · ·)) (sorted' : m.Pairwise (le · ·)) (perm : l.Perm m)
    (nodup : l.Nodup) (separated : Separated le l limit) (j : Nat) :
    (piece l limit j).Perm (piece m limit j) := by
  have start : ∀ j, (l.take (j * limit)).Perm (m.take (j * limit)) := by
    intro j
    by_cases zero : j * limit = 0
    · rw [zero]
      exact List.Perm.refl _
    · by_cases inside : j * limit < l.length
      · have before : l[j * limit - 1]? = some l[j * limit - 1] := List.getElem?_eq_getElem _
        have after : l[j * limit]? = some l[j * limit] := List.getElem?_eq_getElem _
        have pos : 0 < j * limit := Nat.pos_of_ne_zero zero
        have apart := separated _ _ _ pos ⟨j, Nat.mul_comm j limit⟩ before after
        exact take_perm sorted' perm nodup
          (apart_of_neighbours trans sorted pos before after apart)
      · rw [List.take_of_length_le (Nat.not_lt.mp inside),
          List.take_of_length_le (perm.length_eq ▸ Nat.not_lt.mp inside)]
        exact perm
  have whole := start (j + 1)
  rw [Nat.add_one_mul, List.take_add, List.take_add] at whole
  exact (List.perm_append_left_iff (l.take (j * limit))).mp
    (whole.trans ((start j).symm.append_right _))

/-- Two neighbours of a list change places. -/
def swapped (l : List A) (b : Nat) (x y : A) : List A := l.take (b - 1) ++ y :: x :: l.drop (b + 1)

theorem split_neighbours {l : List A} {b : Nat} {x y : A} (pos : 0 < b)
    (before : l[b - 1]? = some x) (after : l[b]? = some y) :
    l = l.take (b - 1) ++ x :: y :: l.drop (b + 1) := by
  obtain ⟨room, rfl⟩ := List.getElem?_eq_some_iff.mp before
  obtain ⟨room', rfl⟩ := List.getElem?_eq_some_iff.mp after
  have here : l.drop (b - 1) = l[b - 1] :: l.drop b := by
    rw [List.drop_eq_getElem_cons room, Nat.sub_add_cancel pos]
  rw [← List.drop_eq_getElem_cons room', ← here, List.take_append_drop]

theorem swapped_sorted {l : List A} {b : Nat} {x y : A} (pos : 0 < b)
    (sorted : l.Pairwise (le · ·)) (before : l[b - 1]? = some x) (after : l[b]? = some y)
    (tie : le y x = true) : (swapped l b x y).Pairwise (le · ·) := by
  rw [split_neighbours pos before after] at sorted
  simp only [swapped, List.pairwise_append, List.pairwise_cons, List.mem_cons,
    forall_eq_or_imp] at sorted ⊢
  obtain ⟨first, ⟨⟨xy, xs⟩, ys, last⟩, across⟩ := sorted
  refine ⟨first, ⟨⟨tie, ys⟩, xs, last⟩, ?_⟩
  intro u early
  obtain ⟨ux, uy, us⟩ := across u early
  exact ⟨uy, ux, us⟩

theorem swapped_perm {l : List A} {b : Nat} {x y : A} (pos : 0 < b)
    (before : l[b - 1]? = some x) (after : l[b]? = some y) : (swapped l b x y).Perm l := by
  conv_rhs => rw [split_neighbours pos before after]
  exact (List.Perm.swap x y _).append_left _

/-- When a page ends between two equal items and they have changed places by the next page,
    one of them is on both pages. -/
theorem repeated_of_swapped {l : List A} {limit j n : Nat} {x y : A} (pos : 0 < limit)
    (before : l[(j + 1) * limit - 1]? = some x) (after : l[(j + 1) * limit]? = some y)
    (covers : l.length ≤ n * limit) :
    ¬ (pieces (fun k => if k = j + 1 then swapped l ((j + 1) * limit) x y else l) limit
      0 n).Nodup := by
  intro nodup
  obtain ⟨room, at_⟩ := List.getElem?_eq_some_iff.mp after
  have stop : (j + 1) * limit = j * limit + limit := Nat.add_one_mul j limit
  have more : j + 1 < n := Nat.lt_of_mul_lt_mul_right (Nat.lt_of_lt_of_le room covers)
  have first : x ∈ piece l limit j := by
    rw [piece, List.mem_iff_getElem?]
    refine ⟨limit - 1, ?_⟩
    rw [List.getElem?_take, if_pos (by omega), List.getElem?_drop,
      show j * limit + (limit - 1) = (j + 1) * limit - 1 by omega]
    exact before
  have second : x ∈ piece (swapped l ((j + 1) * limit) x y) limit (j + 1) := by
    rw [piece, List.mem_iff_getElem?]
    refine ⟨0, ?_⟩
    rw [List.getElem?_take, if_pos pos, List.getElem?_drop, swapped,
      List.getElem?_append_right (by rw [List.length_take]; omega), List.length_take]
    have place : (j + 1) * limit + 0 - min ((j + 1) * limit - 1) l.length = 1 := by omega
    rw [place]
    rfl
  have apart := (List.pairwise_iff_getElem.mp (List.nodup_flatMap.mp nodup).2) j (j + 1)
    (by rw [List.length_range']; omega) (by rw [List.length_range']; omega) (by omega)
  rw [List.getElem_range', List.getElem_range'] at apart
  have index : ∀ i, 0 + 1 * i = i := by omega
  simp only [Function.onFun, index, if_pos, if_neg (show ¬ j = j + 1 by omega)] at apart
  exact apart first second

/-- Whatever order the items are found in for each page, the pages hold every item once exactly
    when no page ends between two items that are equal in the order. -/
theorem covers_iff (trans : ∀ a b c, le a b → le b c → le a c)
    (total : ∀ a b, le a b || le b a) {items : List A} (nodup : items.Nodup) {limit : Nat}
      (pos : 0 < limit) :
    (∀ found : Nat → List A, (∀ k, (found k).Perm items) →
      ∃ seen, Follows (fun k offset => some (slice ((found k).mergeSort le) offset limit)) 0 0
        seen ∧ seen.Perm items) ↔
      Separated le (items.mergeSort le) limit := by
  have sorted : ∀ l : List A, (l.mergeSort le).Pairwise (le · ·) :=
    fun l => List.pairwise_mergeSort trans total l
  have whole := List.mergeSort_perm items le
  have nodup' : (items.mergeSort le).Nodup := whole.nodup_iff.mpr nodup
  constructor
  · intro covered b x y positive ⟨j, end_⟩ before after
    by_contra tie
    rw [Bool.not_eq_false] at tie
    obtain ⟨j, rfl⟩ : ∃ i, j = i + 1 := ⟨j - 1, by
      have some_ : j ≠ 0 := by
        rintro rfl
        omega
      omega⟩
    rw [Nat.mul_comm] at end_
    subst end_
    let l := items.mergeSort le
    let found : Nat → List A := fun k => if k = j + 1 then swapped l ((j + 1) * limit) x y else l
    have perm : ∀ k, (found k).Perm items := by
      intro k
      by_cases here : k = j + 1
      · simp only [found, if_pos here]
        exact (swapped_perm positive before after).trans whole
      · simp only [found, if_neg here]
        exact whole
    have still : ∀ k, (found k).mergeSort le = found k := by
      intro k
      apply List.mergeSort_of_pairwise
      by_cases here : k = j + 1
      · simp only [found, if_pos here]
        exact swapped_sorted positive (sorted items) before after tie
      · simp only [found, if_neg here]
        exact sorted items
    obtain ⟨seen, follows, same⟩ := covered found perm
    simp only [still] at follows
    obtain ⟨n, follows', covers⟩ :=
      follows_pieces pos (fun k => (perm k).length_eq) 0 (by omega)
    rw [Nat.zero_mul] at follows'
    rw [follows.unique follows'] at same
    rw [Nat.zero_add, ← whole.length_eq] at covers
    exact repeated_of_swapped pos before after covers (same.nodup_iff.mpr nodup)
  · intro separated found perm
    have lengths : ∀ k, ((found k).mergeSort le).length = items.length := by
      intro k
      rw [List.length_mergeSort, (perm k).length_eq]
    obtain ⟨n, follows, covers⟩ := follows_pieces pos lengths 0 (by omega)
    rw [Nat.zero_mul] at follows
    refine ⟨_, follows, ?_⟩
    have each : ∀ j, (piece ((found j).mergeSort le) limit j).Perm
        (piece (items.mergeSort le) limit j) := by
      intro j
      have orders : (items.mergeSort le).Perm ((found j).mergeSort le) :=
        whole.trans ((perm j).symm.trans (List.mergeSort_perm _ _).symm)
      exact (piece_perm trans (sorted items) (sorted _) orders nodup' separated j).symm
    have joined : (pieces (fun k => (found k).mergeSort le) limit 0 n).Perm
        (pieces (fun _ => items.mergeSort le) limit 0 n) :=
      List.Perm.flatMap_left _ (fun j _ => each j)
    rw [Nat.zero_add] at covers
    have all : (items.mergeSort le).length ≤ n * limit := by
      rw [List.length_mergeSort]
      exact covers
    rw [pieces_of_one, List.take_of_length_le all] at joined
    exact joined.trans whole

end Sorted
end Paging
