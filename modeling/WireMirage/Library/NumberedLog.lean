import Mathlib.Data.List.Basic

/-!
Logs whose records are numbered by a counter and found through an index from
numbers to ids. Listings walk the numbers down from the newest, a page at a time.
-/
structure NumberedLog (Id A : Type) where
  counter : Nat
  index : Nat → Option Id
  record : Id → Option A

namespace NumberedLog
variable {Id A : Type}

/-- The record a lookup by number finds. -/
def fetch (l : NumberedLog Id A) (n : Nat) : Option A := (l.index n).bind l.record

/-- Every record is where its number leads, and no higher than the counter. -/
structure Addressed (number : A → Nat) (known : Id → Prop) (l : NumberedLog Id A) : Prop where
  indexed : ∀ id a, l.record id = some a → l.index (number a) = some id
  numbered : ∀ n id a, l.index n = some id → l.record id = some a → number a = n
  counted : ∀ id a, l.record id = some a → 0 < number a ∧ number a ≤ l.counter
  known : ∀ n id, l.index n = some id → known id

section Addressing
variable {number : A → Nat} {known : Id → Prop} {l : NumberedLog Id A}
  (addressed : l.Addressed number known)
include addressed

theorem Addressed.fetch {id : Id} {a : A} (live : l.record id = some a) :
    l.fetch (number a) = some a := by
  unfold NumberedLog.fetch
  rw [addressed.indexed id a live]
  exact live

theorem Addressed.fetch_number {n : Nat} {a : A} (found : l.fetch n = some a) : number a = n := by
  unfold NumberedLog.fetch at found
  obtain ⟨id, index, record⟩ := Option.bind_eq_some_iff.mp found
  exact addressed.numbered n id a index record

theorem Addressed.unique {id id' : Id} {a a' : A} (live : l.record id = some a)
    (live' : l.record id' = some a') (same : number a = number a') : id = id' := by
  have one := addressed.indexed id a live
  have two := addressed.indexed id' a' live'
  rw [same, two, Option.some.injEq] at one
  exact one.symm

/-- A record under a new id takes the next number. -/
theorem addressed_append [DecidableEq Id] {id : Id} {a : A} (new : ¬ known id)
    (next : number a = l.counter + 1) {m : NumberedLog Id A} (counter : m.counter = l.counter + 1)
    (index : ∀ n, m.index n = if n = number a then some id else l.index n)
    (record : ∀ x, m.record x = if x = id then some a else l.record x) :
    m.Addressed number (fun x => x = id ∨ known x) where
  indexed := by
    intro x b live
    rw [record] at live
    rw [index]
    by_cases here : x = id
    · rw [if_pos here, Option.some.injEq] at live
      rw [live, if_pos rfl, here]
    · rw [if_neg here] at live
      have below := (addressed.counted x b live).2
      rw [if_neg (by omega)]
      exact addressed.indexed x b live
  numbered := by
    intro n x b at_ live
    rw [index] at at_
    rw [record] at live
    by_cases last : n = number a
    · rw [if_pos last, Option.some.injEq] at at_
      rw [if_pos at_.symm, Option.some.injEq] at live
      rw [last, live]
    · rw [if_neg last] at at_
      have old := addressed.known n x at_
      have other : x ≠ id := fun same => new (same ▸ old)
      rw [if_neg other] at live
      exact addressed.numbered n x b at_ live
  counted := by
    intro x b live
    rw [record] at live
    by_cases here : x = id
    · rw [if_pos here, Option.some.injEq] at live
      rw [← live, counter]
      omega
    · rw [if_neg here] at live
      have bounds := addressed.counted x b live
      omega
  known := by
    intro n x at_
    rw [index] at at_
    by_cases last : n = number a
    · rw [if_pos last, Option.some.injEq] at at_
      exact .inl at_.symm
    · rw [if_neg last] at at_
      exact .inr (addressed.known n x at_)

/-- Records may go, and then the entries that led to them. -/
theorem addressed_shrink {m : NumberedLog Id A} (counter : m.counter = l.counter)
    (record : ∀ id a, m.record id = some a → l.record id = some a)
    (index : ∀ n id, m.index n = some id → l.index n = some id)
    (kept : ∀ id a, m.record id = some a → m.index (number a) = l.index (number a)) :
    m.Addressed number known where
  indexed := by
    intro id a live
    rw [kept id a live]
    exact addressed.indexed id a (record id a live)
  numbered := fun n id a at_ live => addressed.numbered n id a (index n id at_) (record id a live)
  counted := by
    intro id a live
    rw [counter]
    exact addressed.counted id a (record id a live)
  known := fun n id at_ => addressed.known n id (index n id at_)

/-- Once no record is left, the numbers can start over. -/
theorem addressed_restart {m : NumberedLog Id A} (empty : ∀ id, m.record id = none)
    (index : ∀ n id, m.index n = some id → l.index n = some id) : m.Addressed number known where
  indexed := by
    intro id a live
    rw [empty] at live
    cases live
  numbered := by
    intro n id a _ live
    rw [empty] at live
    cases live
  counted := by
    intro id a live
    rw [empty] at live
    cases live
  known := fun n id at_ => addressed.known n id (index n id at_)

theorem addressed_mono {wider : Id → Prop} (grown : ∀ id, known id → wider id) :
    l.Addressed number wider where
  indexed := addressed.indexed
  numbered := addressed.numbered
  counted := addressed.counted
  known := fun n id at_ => grown id (addressed.known n id at_)

end Addressing

/-! Listings -/

/-- Walk down from `n`, up to `limit` records; a number without one is passed over. -/
def walkDown (get : Nat → Option A) (keep : A → Bool) : Nat → Nat → List A
  | 0, _ => []
  | _, 0 => []
  | limit + 1, n + 1 =>
    match get (n + 1) with
    | some a => if keep a then a :: walkDown get keep limit n else walkDown get keep (limit + 1) n
    | none => walkDown get keep (limit + 1) n

/-- Page after page, each from below the last record of the page before. -/
def follow (page : Nat → List A) (number : A → Nat) : Nat → Nat → List A
  | 0, _ => []
  | fuel + 1, n =>
    match (page n).getLast? with
    | none => []
    | some last => page n ++ follow page number fuel (number last - 1)

section Listing
variable {get : Nat → Option A} {keep : A → Bool} {number : A → Nat}
  (addressed : ∀ n a, get n = some a → number a = n)
include addressed

/-- A page is empty only when nothing is left, and complete down to its last record. -/
theorem walkDown_cases (limit n : Nat) :
    ((walkDown get keep (limit + 1) n).getLast? = none ∧
        ∀ m a, 0 < m → m ≤ n → get m = some a → keep a = false) ∨
      ∃ last, (walkDown get keep (limit + 1) n).getLast? = some last ∧ 0 < number last ∧
        number last ≤ n ∧ ∀ m a, number last ≤ m → m ≤ n → get m = some a → keep a = true →
          a ∈ walkDown get keep (limit + 1) n := by
  induction n generalizing limit with
  | zero =>
    left
    refine ⟨rfl, ?_⟩
    intro m a positive small
    omega
  | succ n ih =>
    have skip : (∀ a, get (n + 1) = some a → keep a = false) →
        walkDown get keep (limit + 1) (n + 1) = walkDown get keep (limit + 1) n := by
      intro unkept
      rw [walkDown]
      cases here : get (n + 1) with
      | none => rfl
      | some a => simp [unkept a here]
    by_cases taken : ∃ a, get (n + 1) = some a ∧ keep a = true
    · obtain ⟨a, here, kept⟩ := taken
      have number_ := addressed _ _ here
      have unfolds : walkDown get keep (limit + 1) (n + 1) = a :: walkDown get keep limit n := by
        rw [walkDown, here]
        simp [kept]
      right
      rw [unfolds]
      cases limit with
      | zero =>
        refine ⟨a, by simp [walkDown], by omega, by omega, ?_⟩
        intro m b low high found _
        have top : m = n + 1 := by omega
        rw [top, here, Option.some.injEq] at found
        exact found ▸ List.mem_cons_self
      | succ limit =>
        rcases ih limit with ⟨empty, none⟩ | ⟨last, found, positive, small, all⟩
        · rw [List.getLast?_eq_none_iff] at empty
          refine ⟨a, by simp [empty], by omega, by omega, ?_⟩
          intro m b low high found _
          have top : m = n + 1 := by omega
          rw [top, here, Option.some.injEq] at found
          exact found ▸ List.mem_cons_self
        · refine ⟨last, by simp [List.getLast?_cons, found], positive, by omega, ?_⟩
          intro m b low high found keptB
          by_cases top : m = n + 1
          · rw [top, here, Option.some.injEq] at found
            exact found ▸ List.mem_cons_self
          · exact List.mem_cons_of_mem a (all m b low (by omega) found keptB)
    · have unkept : ∀ a, get (n + 1) = some a → keep a = false := by
        intro a here
        cases kept : keep a with
        | false => rfl
        | true => exact absurd ⟨a, here, kept⟩ taken
      rw [skip unkept]
      rcases ih limit with ⟨empty, none⟩ | ⟨last, found, positive, small, all⟩
      · left
        refine ⟨empty, ?_⟩
        intro m a low high found
        by_cases top : m = n + 1
        · exact unkept a (top ▸ found)
        · exact none m a low (by omega) found
      · right
        refine ⟨last, found, positive, by omega, ?_⟩
        intro m a low high here kept
        by_cases top : m = n + 1
        · rw [unkept a (top ▸ here)] at kept
          cases kept
        · exact all m a low (by omega) here kept

/-- Following the pages down finds every record that is kept. -/
theorem mem_follow {limit fuel n m : Nat} {a : A} (enough : n < fuel) (positive : 0 < m)
    (below : m ≤ n) (found : get m = some a) (kept : keep a = true) :
    a ∈ follow (walkDown get keep (limit + 1)) number fuel n := by
  induction fuel generalizing n with
  | zero => omega
  | succ fuel ih =>
    unfold follow
    have page := @walkDown_cases A get keep number addressed limit n
    rcases page with
      ⟨_, none⟩ | ⟨last, ends, lastPositive, small, all⟩
    · rw [none m a positive below found] at kept
      cases kept
    · rw [ends]
      by_cases here : number last ≤ m
      · exact List.mem_append_left _ (all m a here below found kept)
      · exact List.mem_append_right _ (ih (by omega) (by omega))

/-- A page holds records by their numbers. -/
theorem walkDown_sound {limit n : Nat} {a : A} (member : a ∈ walkDown get keep limit n) :
    0 < number a ∧ number a ≤ n ∧ keep a = true := by
  induction n generalizing limit with
  | zero => cases limit <;> cases member
  | succ n ih =>
    cases limit with
    | zero => cases member
    | succ limit =>
      have further : ∀ l, a ∈ walkDown get keep l n →
          0 < number a ∧ number a ≤ n + 1 ∧ keep a = true := by
        intro l later
        obtain ⟨positive, small, kept⟩ := ih later
        exact ⟨positive, by omega, kept⟩
      rw [walkDown] at member
      cases here : get (n + 1) with
      | none =>
        rw [here] at member
        exact further _ member
      | some b =>
        simp only [here] at member
        split at member
        · rename_i kept
          rcases List.mem_cons.mp member with rfl | later
          · rw [addressed _ _ here]
            exact ⟨by omega, by omega, kept⟩
          · exact further _ later
        · exact further _ member

/-- The numbers of a page go down. -/
theorem walkDown_decreasing (limit n : Nat) :
    (walkDown get keep limit n).Pairwise (fun a b => number b < number a) := by
  induction n generalizing limit with
  | zero => cases limit <;> exact .nil
  | succ n ih =>
    cases limit with
    | zero => exact .nil
    | succ limit =>
      rw [walkDown]
      split
      · rename_i a here
        split
        · refine .cons ?_ (ih limit)
          intro b later
          obtain ⟨_, small, _⟩ := walkDown_sound addressed later
          rw [addressed _ _ here]
          omega
        · exact ih (limit + 1)
      · exact ih (limit + 1)

end Listing

/-! Counting -/

/-- How many of the first `n` numbers lead to a record of the kind `p`. -/
def tally (get : Nat → Option A) (p : A → Bool) : Nat → Nat
  | 0 => 0
  | n + 1 => tally get p n + if (get (n + 1)).any p then 1 else 0

theorem tally_zero {get : Nat → Option A} {p : A → Bool} {n : Nat}
    (none : ∀ m a, m ≤ n → get m = some a → p a = false) : tally get p n = 0 := by
  induction n with
  | zero => rfl
  | succ n ih =>
    have here : (get (n + 1)).any p = false := by
      cases found : get (n + 1) with
      | none => rfl
      | some a => exact none (n + 1) a (Nat.le_refl _) found
    have below := ih (fun m a small => none m a (Nat.le_succ_of_le small))
    rw [tally, here, below, if_neg Bool.false_ne_true]

/-- The ids of the records of the kind `p` that the first `n` numbers lead to. -/
def idsOf (l : NumberedLog Id A) (p : A → Bool) : Nat → List Id
  | 0 => []
  | n + 1 =>
    match l.index (n + 1) with
    | some id => if (l.record id).any p then id :: idsOf l p n else idsOf l p n
    | none => idsOf l p n

section Kinds
variable {l : NumberedLog Id A} {p : A → Bool}

theorem length_idsOf (n : Nat) : (l.idsOf p n).length = tally l.fetch p n := by
  induction n with
  | zero => rfl
  | succ n ih =>
    rw [idsOf, tally, ← ih]
    cases at_ : l.index (n + 1) with
    | none => simp [fetch, at_]
    | some id =>
      cases kind : (l.record id).any p with
      | true => simp [fetch, at_, kind]
      | false => simp [fetch, at_, kind]

theorem mem_idsOf {id : Id} {n : Nat} : id ∈ l.idsOf p n ↔
    ∃ m a, 0 < m ∧ m ≤ n ∧ l.index m = some id ∧ l.record id = some a ∧ p a = true := by
  induction n with
  | zero =>
    constructor
    · intro member
      cases member
    · rintro ⟨m, _, positive, small, _⟩
      omega
  | succ n ih =>
    have split : (∃ m a, 0 < m ∧ m ≤ n + 1 ∧ l.index m = some id ∧ l.record id = some a ∧
        p a = true) ↔ (l.index (n + 1) = some id ∧ (l.record id).any p = true) ∨
          ∃ m a, 0 < m ∧ m ≤ n ∧ l.index m = some id ∧ l.record id = some a ∧ p a = true := by
      constructor
      · rintro ⟨m, a, positive, small, at_, live, kind⟩
        by_cases top : m = n + 1
        · left
          subst top
          exact ⟨at_, by rw [live]; exact kind⟩
        · exact .inr ⟨m, a, positive, by omega, at_, live, kind⟩
      · rintro (⟨at_, kind⟩ | ⟨m, a, positive, small, rest⟩)
        · obtain ⟨a, live, kind⟩ := (Option.any_eq_true p _).mp kind
          exact ⟨n + 1, a, by omega, Nat.le_refl _, at_, live, kind⟩
        · exact ⟨m, a, positive, by omega, rest⟩
    rw [split, ← ih, idsOf]
    cases l.index (n + 1) with
    | none => simp
    | some x =>
      by_cases kind : (l.record x).any p = true
      · simp only [kind, if_true, List.mem_cons, Option.some.injEq]
        constructor
        · rintro (rfl | later)
          · exact .inl ⟨rfl, kind⟩
          · exact .inr later
        · rintro (⟨rfl, _⟩ | later)
          · exact .inl rfl
          · exact .inr later
      · simp only [kind, Bool.false_eq_true, if_false, Option.some.injEq]
        constructor
        · exact .inr
        · rintro (⟨rfl, kind'⟩ | later)
          · exact absurd kind' kind
          · exact later

section Counting
variable {number : A → Nat} {known : Id → Prop} (addressed : l.Addressed number known)
include addressed

theorem nodup_idsOf (n : Nat) : (l.idsOf p n).Nodup := by
  induction n with
  | zero => exact List.nodup_nil
  | succ n ih =>
    rw [idsOf]
    split
    · rename_i id at_
      split
      · rename_i kind
        refine List.nodup_cons.mpr ⟨?_, ih⟩
        intro again
        obtain ⟨m, a, _, small, below, live, _⟩ := mem_idsOf.mp again
        have one := addressed.numbered _ _ _ at_ live
        have two := addressed.numbered _ _ _ below live
        omega
      · exact ih
    · exact ih

/-- Up to the counter they are all the records of the kind. -/
theorem mem_idsOf_counter {id : Id} :
    id ∈ l.idsOf p l.counter ↔ ∃ a, l.record id = some a ∧ p a = true := by
  rw [mem_idsOf]
  constructor
  · rintro ⟨_, a, _, _, _, live, kind⟩
    exact ⟨a, live, kind⟩
  · rintro ⟨a, live, kind⟩
    obtain ⟨positive, small⟩ := addressed.counted id a live
    exact ⟨number a, a, positive, small, addressed.indexed id a live, live, kind⟩

end Counting
end Kinds

/-! Pages of a log that changes between them -/

/-- Where the page after one starts; below the record numbered 1 there is none. -/
def below (number : A → Nat) (page : List A) : Option Nat :=
  (page.getLast?.filter (fun a => 1 < number a)).map (fun a => number a - 1)

section Changing
variable (get : Nat → Nat → Option A) (keep : Nat → A → Bool) (limit : Nat → Nat)
  (number : A → Nat) (first : Nat)

/-- The number each page starts from, as long as there are pages. -/
def startAt : Nat → Option Nat
  | 0 => some first
  | k + 1 => (startAt k).bind
      (fun n => below number (walkDown (get k) (keep k) (limit k + 1) n))

def pageAt (k : Nat) : List A :=
  match startAt get keep limit number first k with
  | none => []
  | some n => walkDown (get k) (keep k) (limit k + 1) n

variable {get keep limit number first} (addressed : ∀ k n a, get k n = some a → number a = n)
include addressed

/-- The next page starts below everything on this one. -/
theorem below_page {k n m : Nat}
    (next : below number (walkDown (get k) (keep k) (limit k + 1) n) = some m) :
    0 < m ∧ m < n ∧ ∀ a ∈ walkDown (get k) (keep k) (limit k + 1) n, m < number a := by
  unfold below at next
  obtain ⟨last, ends, rfl⟩ := Option.map_eq_some_iff.mp next
  obtain ⟨ends, more⟩ := Option.filter_eq_some_iff.mp ends
  simp only [decide_eq_true_eq] at more
  have member := List.mem_of_getLast? ends
  obtain ⟨_, small, _⟩ := walkDown_sound (addressed k) member
  refine ⟨by omega, by omega, ?_⟩
  intro a held
  obtain ⟨rest, split⟩ := List.getLast?_eq_some_iff.mp ends
  have down : (walkDown (get k) (keep k) (limit k + 1) n).Pairwise
      (fun a b => number b < number a) := walkDown_decreasing (addressed k) (limit k + 1) n
  rw [split] at held down
  rcases List.mem_append.mp held with earlier | same
  · have above := (List.pairwise_append.mp down).2.2 a earlier last (List.mem_singleton.mpr rfl)
    omega
  · rw [List.mem_singleton.mp same]
    omega

theorem startAt_falls {k n m : Nat} (here : startAt get keep limit number first k = some n)
    (next : startAt get keep limit number first (k + 1) = some m) :
    0 < m ∧ m < n ∧ ∀ a ∈ pageAt get keep limit number first k, m < number a := by
  rw [startAt, here, Option.bind_some] at next
  rw [pageAt, here]
  exact below_page addressed next

omit addressed in
theorem startAt_some {k : Nat} {m : Nat}
    (next : startAt get keep limit number first (k + 1) = some m) :
    ∃ n, startAt get keep limit number first k = some n := by
  rw [startAt] at next
  obtain ⟨n, here, _⟩ := Option.bind_eq_some_iff.mp next
  exact ⟨n, here⟩

theorem startAt_bound {k n : Nat} (here : startAt get keep limit number first k = some n) :
    n + k ≤ first := by
  induction k generalizing n with
  | zero =>
    cases here
    omega
  | succ k ih =>
    obtain ⟨m, before⟩ := startAt_some here
    have falls := startAt_falls addressed before here
    have bound := ih before
    omega

/-- There are no more pages than numbers. -/
theorem startAt_ends : startAt get keep limit number first (first + 1) = none := by
  cases here : startAt get keep limit number first (first + 1) with
  | none => rfl
  | some n =>
    have bound := startAt_bound addressed here
    omega

theorem pageAt_start {k : Nat} {a : A} (member : a ∈ pageAt get keep limit number first k) :
    ∃ n, startAt get keep limit number first k = some n ∧ number a ≤ n := by
  unfold pageAt at member
  split at member
  · cases member
  · rename_i n here
    exact ⟨n, here, (walkDown_sound (addressed k) member).2.1⟩

theorem pageAt_decreasing (k : Nat) :
    (pageAt get keep limit number first k).Pairwise (fun a b => number b < number a) := by
  unfold pageAt
  split
  · exact .nil
  · exact walkDown_decreasing (addressed k) _ _

/-- Every page is below the pages before it. -/
theorem pages_decreasing {j k : Nat} (later : j < k) {a b : A}
    (one : a ∈ pageAt get keep limit number first j)
    (two : b ∈ pageAt get keep limit number first k) : number b < number a := by
  obtain ⟨m, starts, small⟩ := pageAt_start addressed two
  have above : ∀ k m, startAt get keep limit number first k = some m → j < k → m < number a := by
    intro k
    induction k with
    | zero => omega
    | succ k ih =>
      intro m starts later
      obtain ⟨n, before⟩ := startAt_some starts
      obtain ⟨_, falls, page⟩ := startAt_falls addressed before starts
      by_cases same : j = k
      · subst same
        exact page a one
      · have high := ih n before (by omega)
        omega
  have high := above k m starts later
  omega

/-- A record that is kept at every page is on one of them. -/
theorem mem_pageAt {a : A} (positive : 0 < number a) (within : number a ≤ first)
    (kept : ∀ k, startAt get keep limit number first k ≠ none →
      get k (number a) = some a ∧ keep k a = true) :
    ∃ k, a ∈ pageAt get keep limit number first k := by
  have found : ∀ n k, startAt get keep limit number first k = some n → number a ≤ n →
      ∃ k, a ∈ pageAt get keep limit number first k := by
    intro n
    induction n using Nat.strongRecOn with
    | ind n ih =>
      intro k starts small
      obtain ⟨live, seen⟩ := kept k (by rw [starts]; simp)
      rcases @walkDown_cases A (get k) (keep k) number (addressed k) (limit k) n with
        ⟨_, none⟩ | ⟨last, ends, _, low, all⟩
      · rw [none (number a) a positive small live] at seen
        cases seen
      · by_cases here : number last ≤ number a
        · refine ⟨k, ?_⟩
          unfold pageAt
          rw [starts]
          exact all (number a) a here small live seen
        · have next : startAt get keep limit number first (k + 1) = some (number last - 1) := by
            rw [startAt, starts, Option.bind_some, below, ends]
            have more : 1 < number last := by omega
            simp [Option.filter, more]
          exact ih (number last - 1) (by omega) (k + 1) next (by omega)
  exact found first 0 rfl within

end Changing
end NumberedLog
