import Mathlib.Data.List.Basic

/-!
The elements of a list whose indices lie between two integers.
-/
namespace Window
variable {A : Type}

def between (q : List A) (first last : Int) : List A :=
  (q.zipIdx.filter (fun e => first ≤ e.2 ∧ e.2 ≤ last)).map Prod.fst

/-- Two windows that agree on the indices of the list. -/
theorem between_congr {q : List A} {first last first' last' : Int}
    (same : ∀ i : Nat, i < q.length → (first ≤ i ∧ i ≤ last ↔ first' ≤ i ∧ i ≤ last')) :
    between q first last = between q first' last' := by
  unfold between
  congr 1
  apply List.filter_congr
  intro e inside
  have within := (List.mem_zipIdx inside).2.1
  exact decide_eq_decide.mpr (same e.2 (by omega))

theorem between_eq_nil_iff {q : List A} {first last : Int} :
    between q first last = [] ↔ ∀ i : Nat, i < q.length → ¬ (first ≤ i ∧ i ≤ last) := by
  unfold between
  rw [List.map_eq_nil_iff, List.filter_eq_nil_iff]
  constructor
  · intro none i within
    have inside : (q[i], i) ∈ q.zipIdx := by
      rw [List.mem_zipIdx_iff_getElem?]
      exact List.getElem?_eq_getElem within
    simpa using none _ inside
  · intro none e inside
    have within := (List.mem_zipIdx inside).2.1
    simpa using none e.2 (by omega)

theorem slice_zipIdx (q : List A) (first last : Int) (k : Nat) :
    (q.drop (first - k).toNat).take (last - max first k + 1).toNat =
      ((q.zipIdx k).filter (fun e => first ≤ e.2 ∧ e.2 ≤ last)).map Prod.fst := by
  induction q generalizing k with
  | nil => simp
  | cons a q ih =>
    have later := ih (k + 1)
    rw [List.zipIdx_cons, List.filter_cons]
    by_cases before : (k : Int) < first
    · have skip : (first - k).toNat = (first - (k + 1 : Nat)).toNat + 1 := by omega
      have edge : max first (k : Int) = max first ((k + 1 : Nat) : Int) := by omega
      rw [if_neg (by simp; omega), skip, edge, List.drop_succ_cons, later]
    · have start : (first - k).toNat = 0 := by omega
      have next : (first - (k + 1 : Nat)).toNat = 0 := by omega
      rw [next, List.drop_zero] at later
      rw [start, List.drop_zero]
      by_cases within : (k : Int) ≤ last
      · have more : (last - max first (k : Int) + 1).toNat =
            (last - max first ((k + 1 : Nat) : Int) + 1).toNat + 1 := by omega
        rw [if_pos (by simp; omega), more, List.take_succ_cons, later, List.map_cons]
      · have none : (last - max first (k : Int) + 1).toNat = 0 := by omega
        have still : (last - max first ((k + 1 : Nat) : Int) + 1).toNat = 0 := by omega
        rw [still, List.take_zero] at later
        rw [if_neg (by simp; omega), none, List.take_zero, later]

theorem slice_eq_between (q : List A) {first : Int} (low : 0 ≤ first) (last : Int) :
    (q.drop first.toNat).take (last - first + 1).toNat = between q first last := by
  have whole := slice_zipIdx q first last 0
  have edge : max first ((0 : Nat) : Int) = first := by omega
  rw [edge] at whole
  simpa [between] using whole

end Window
