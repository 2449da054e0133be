import WireMirage.Store.Cells

/-!
The same calls on the in-memory store and on Valkey. The two part where a collection loses
its last element, which only Valkey forgets; where a counter is written as only the host
reads it; and where a value that is no byte string stands under a key to be claimed.
-/
namespace WireMirage

/-! What is compared -/

/-- Values with the same contents, whatever order they are kept in. -/
def MemValue.Same : MemValue Bytes → MemValue Bytes → Prop
  | .bytes a, .bytes b => a = b
  | .list q, .list r => q = r
  | .hash h, .hash g => ∀ field, h.lookup field = g.lookup field
  | .set ms, .set ns => ∀ x, x ∈ ms.toList ↔ x ∈ ns.toList
  | _, _ => False

def SameCell : Cell → Cell → Prop
  | none, none => True
  | some v, some w => v.Same w
  | _, _ => False

def SameContents (m v : Backing) : Prop := ∀ k, SameCell (m.lookup k) (v.lookup k)

/-- Answers that agree: errors as errors, names as sets. -/
inductive Agree {E F : Type} : Except E Answer → Except F Answer → Prop where
  | failed (e : E) (f : F) : Agree (.error e) (.error f)
  | same (a : Answer) : Agree (.ok a) (.ok a)
  | names {l l' : List String} (same : ∀ x, x ∈ l ↔ x ∈ l') :
      Agree (.ok (.names l)) (.ok (.names l'))

/-- The calls whose answers are compared: ranges aside, and what has to do with time. -/
def KeyCall.Compared : KeyCall → Bool
  | .listRange _ _ => false
  | .setWithTtl _ _ => false
  | .setTtl _ => false
  | .clearTtl => false
  | .hashGetAll => false
  | _ => true

/-- A prefix of a listing has no byte that is special in a pattern. -/
def BucketCall.Compared : BucketCall → Prop
  | .on _ call => call.Compared
  | .listKeys userPrefix => Glob.Literal (utf8Bytes (userPrefix.getD ""))
  | .deleteWithPrefix _ => False

/-- A run of calls on buckets. -/
abbrev BucketRun := List (String × BucketCall)

section Runs
variable (reporting : Reporting)

/-- Answers and contents agree along a run. -/
def Equivalent : BucketRun → Backing → Backing → Prop
  | [], m, v => SameContents m v
  | (p, call) :: rest, m, v =>
    SameContents m v ∧ Agree (call.perform reporting p m).1 (call.perform reporting p v).1 ∧
      Equivalent rest (call.perform reporting p m).2 (call.perform reporting p v).2

/-! Where the backends part -/

/-- A counter that the host reads and the server does not, with room for the sum. -/
def Misread (b : Bytes) (delta : Int64) : Prop :=
  ∃ n, Decimal.parse b = some n ∧ Decimal.canonical b = none ∧
    i64Min ≤ n + delta.toInt ∧ n + delta.toInt ≤ i64Max

def KeyCall.Diverges : KeyCall → Cell → Prop
  | .listPop, some (.list q) => q.length = 1
  | .hashDelete field, some (.hash h) => h.keys = [field]
  | .setRemove x, some (.set ms) => ms.toList = [x]
  | .setIfAbsent _, some v => v.kind ≠ .bytes
  | .incr delta, some (.bytes b) => Misread b delta
  | .hashIncr field delta, some (.hash h) => ∃ b, h.lookup field = some b ∧ Misread b delta
  | _, _ => False

def BucketCall.Diverges (p : String) (m : Backing) : BucketCall → Prop
  | .on key call => call.Diverges (m.lookup (p ++ key))
  | _ => False

/-- No call of the run is one at which the backends part. -/
def Common : BucketRun → Backing → Prop
  | [], _ => True
  | (p, call) :: rest, m => ¬ call.Diverges p m ∧ Common rest (call.perform reporting p m).2

end Runs

/-! Reading a counter -/

theorem parse_of_canonical {b : Bytes} {n : Int} (read : Decimal.canonical b = some n) :
    Decimal.parse b = some n := by
  have chars : ∀ l : List Char, canonicalI64 l = some n → parseI64 l = some n := by
    intro l read
    unfold canonicalI64 at read
    split at read
    · cases read
      rfl
    · cases read
    · cases read
    · cases read
    · exact read
  show (utf8Text b).bind (fun s => parseI64 s.toList) = some n
  have read : (utf8Text b).bind (fun s => canonicalI64 s.toList) = some n := read
  rw [Option.bind_eq_some_iff] at read ⊢
  obtain ⟨s, text, read⟩ := read
  exact ⟨s, text, chars s.toList read⟩

section Sums
variable {s t : Storage Unit Bytes} (memory : s.backend = .inMemory) (valkey : t.backend = .valkey)
  {current : Option Bytes} {delta : Int64} (field : Option String)
include memory valkey

theorem addInt_alike (common : ∀ b, current = some b → ¬ Misread b delta) :
    (∃ e f, s.addInt () field current delta.toInt = .error e ∧
        t.addInt () field current delta.toInt = .error f) ∨
      ∃ n, s.addInt () field current delta.toInt = .ok n ∧
        t.addInt () field current delta.toInt = .ok n := by
  cases current with
  | none => exact .inr ⟨_, rfl, rfl⟩
  | some b =>
  have host : s.readInt b = Decimal.parse b := by rw [Storage.readInt, memory]
  have server : t.readInt b = Decimal.canonical b := by rw [Storage.readInt, valkey]
  simp only [Storage.addInt, host, server]
  cases canonical : (Decimal.canonical b : Option Int) with
  | some n =>
    rw [parse_of_canonical canonical]
    simp only
    split
    · exact .inr ⟨_, rfl, rfl⟩
    · exact .inl ⟨_, _, rfl, rfl⟩
  | none =>
    cases parsed : (Decimal.parse b : Option Int) with
    | none => exact .inl ⟨_, _, rfl, rfl⟩
    | some n =>
      have past : ¬ (i64Min ≤ n + delta.toInt ∧ n + delta.toInt ≤ i64Max) :=
        fun fits => common b rfl ⟨n, parsed, canonical, fits⟩
      simp only [if_neg past]
      exact .inl ⟨_, _, rfl, rfl⟩

theorem storeSum_parts {b : Bytes} (misread : Misread b delta) (held : current = some b)
    (update : Int → MemValue Bytes) :
    ¬ Agree
      ((s.storeSum (s.addInt () field current delta.toInt)
        (fun n => s.write () (update n))).answer .number).1
      ((t.storeSum (t.addInt () field current delta.toInt)
        (fun n => t.write () (update n))).answer .number).1 := by
  obtain ⟨n, parsed, canonical, fits⟩ := misread
  have host : s.readInt b = some n := by rw [Storage.readInt, memory, parsed]
  have server : t.readInt b = none := by rw [Storage.readInt, valkey, canonical]
  have first : s.addInt () field current delta.toInt = .ok (n + delta.toInt) := by
    simp only [held, Storage.addInt, host, if_pos fits]
  have second : t.addInt () field current delta.toInt = .error (.notInteger () field) := by
    simp only [held, Storage.addInt, server]
  rw [first, second]
  intro agree
  cases agree

theorem storeSum_alike (common : ∀ b, current = some b → ¬ Misread b delta)
    (here : s.lookup () = t.lookup ()) (update : Int → MemValue Bytes) :
    Agree
        ((s.storeSum (s.addInt () field current delta.toInt)
          (fun n => s.write () (update n))).answer .number).1
        ((t.storeSum (t.addInt () field current delta.toInt)
          (fun n => t.write () (update n))).answer .number).1 ∧
      ((s.storeSum (s.addInt () field current delta.toInt)
          (fun n => s.write () (update n))).answer .number).2.lookup () =
        ((t.storeSum (t.addInt () field current delta.toInt)
          (fun n => t.write () (update n))).answer .number).2.lookup () := by
  rcases addInt_alike memory valkey field common with ⟨e, f, first, second⟩ | ⟨n, first, second⟩
  · rw [first, second]
    exact ⟨.failed _ _, here⟩
  · rw [first, second]
    refine ⟨.same _, ?_⟩
    show (s.write () (update n)).lookup () = (t.write () (update n)).lookup ()
    rw [Storage.lookup_write, Storage.lookup_write, if_pos rfl, if_pos rfl]

end Sums

/-! One key on either backend -/

/-- A collection under a key has an element. -/
def Full (c : Cell) : Prop := ∀ v, c = some v → v.isEmpty = false

structure CellAlike (call : KeyCall) (c : Cell) : Prop where
  answers : Agree (call.outcome .inMemory c) (call.outcome .valkey c)
  left : call.left .inMemory c = call.left .valkey c

section Cells
variable {c : Cell}

theorem left_pop (backend : Backend) (q : List Bytes) :
    KeyCall.listPop.left backend (some (.list q)) =
      if backend = .valkey ∧ q.tail.isEmpty then none else some (.list q.tail) :=
  Storage.lookup_writeBack_eq (alone backend (some (.list q))) () _

theorem left_hashDelete (backend : Backend) (field : String) (h : Fields Bytes) :
    (KeyCall.hashDelete field).left backend (some (.hash h)) =
      if backend = .valkey ∧ (h.erase field).entries.isEmpty then none
      else some (.hash (h.erase field)) :=
  Storage.lookup_writeBack_eq (alone backend (some (.hash h))) () _

theorem left_setRemove (backend : Backend) (x : String) (ms : Members) :
    (KeyCall.setRemove x).left backend (some (.set ms)) =
      if backend = .valkey ∧ (ms.erase x).toList.isEmpty then none
      else some (.set (ms.erase x)) :=
  Storage.lookup_writeBack_eq (alone backend (some (.set ms))) () _

theorem alike_pop {q : List Bytes} (full : Full (some (.list q))) (more : q.length ≠ 1) :
    CellAlike .listPop (some (.list q)) := by
  refine ⟨.same _, ?_⟩
  have some : q.isEmpty = false := full _ rfl
  have kept : q.tail.isEmpty = false := by
    match q, some, more with
    | _ :: _ :: _, _, _ => rfl
  rw [left_pop, left_pop, kept]
  rfl

/-- Taking one element of a list without repetitions leaves another, unless it is the only one. -/
theorem erase_ne_nil {l : List String} {x : String} (once : l.Nodup) (some : l ≠ [])
    (more : l ≠ [x]) : l.erase x ≠ [] := by
  intro none
  by_cases member : x ∈ l
  · have length := List.length_erase_of_mem member
    have positive := List.length_pos_iff.mpr some
    rw [none, List.length_nil] at length
    obtain ⟨y, rfl⟩ := List.length_eq_one_iff.mp (show l.length = 1 by omega)
    rw [List.mem_singleton.mp member] at more
    exact more rfl
  · rw [List.erase_of_not_mem member] at none
    exact some none

theorem entries_isEmpty_iff (h : Fields Bytes) : h.entries.isEmpty = true ↔ h.keys = [] := by
  rw [List.isEmpty_iff, AList.keys, List.keys, List.map_eq_nil_iff]

theorem alike_hashDelete {field : String} {h : Fields Bytes} (full : Full (some (.hash h)))
    (more : h.keys ≠ [field]) : CellAlike (.hashDelete field) (some (.hash h)) := by
  refine ⟨.same _, ?_⟩
  have some : h.keys ≠ [] := by
    intro none
    have empty : h.entries.isEmpty = false := full _ rfl
    rw [(entries_isEmpty_iff h).mpr none] at empty
    cases empty
  have kept : ¬ (h.erase field).entries.isEmpty = true := by
    rw [entries_isEmpty_iff, AList.keys_erase]
    exact erase_ne_nil h.nodupKeys some more
  rw [left_hashDelete, left_hashDelete, if_neg (fun gone => kept gone.2),
    if_neg (fun gone => kept gone.2)]

theorem alike_setRemove {x : String} {ms : Members} (full : Full (some (.set ms)))
    (more : ms.toList ≠ [x]) : CellAlike (.setRemove x) (some (.set ms)) := by
  refine ⟨.same _, ?_⟩
  have some : ms.toList ≠ [] := by
    intro none
    have empty : ms.toList.isEmpty = false := full _ rfl
    rw [none] at empty
    cases empty
  have kept : ¬ (ms.erase x).toList.isEmpty = true := by
    rw [List.isEmpty_iff]
    exact erase_ne_nil ms.nodup some more
  rw [left_setRemove, left_setRemove, if_neg (fun gone => kept gone.2),
    if_neg (fun gone => kept gone.2)]

theorem alike_incr {b : Bytes} {delta : Int64} (common : ¬ Misread b delta) :
    CellAlike (.incr delta) (some (.bytes b)) := by
  have readable : ∀ b', some b = some b' → ¬ Misread b' delta := by
    rintro b' ⟨⟩
    exact common
  obtain ⟨answers, left⟩ := storeSum_alike (s := alone .inMemory (some (.bytes b)))
    (t := alone .valkey (some (.bytes b))) rfl rfl none readable rfl
    (fun n => .bytes (Decimal.ofInt n))
  exact ⟨answers, left⟩

theorem alike_hashIncr {field : String} {h : Fields Bytes} {delta : Int64}
    (common : ¬ ∃ b, h.lookup field = some b ∧ Misread b delta) :
    CellAlike (.hashIncr field delta) (some (.hash h)) := by
  have readable : ∀ b, h.lookup field = some b → ¬ Misread b delta :=
    fun b held misread => common ⟨b, held, misread⟩
  obtain ⟨answers, left⟩ := storeSum_alike (s := alone .inMemory (some (.hash h)))
    (t := alone .valkey (some (.hash h))) rfl rfl (some field) readable rfl
    (fun n => .hash (h.insert field (Decimal.ofInt n)))
  exact ⟨answers, left⟩

/-- Where the backends do not part, they answer alike and leave the same. -/
theorem cell_alike {call : KeyCall} (compared : call.Compared) (full : Full c)
    (common : ¬ call.Diverges c) : CellAlike call c := by
  cases call with
  | get => rcases c with _ | (b | q | h | ms) <;>
      first | exact ⟨.same _, rfl⟩ | exact ⟨.failed _ _, rfl⟩
  | set value => exact ⟨.same _, rfl⟩
  | delete => exact ⟨.same _, rfl⟩
  | setWithTtl value ttl => cases compared
  | setTtl ttl => cases compared
  | clearTtl => cases compared
  | setIfAbsent value =>
    rcases c with _ | v
    · exact ⟨.same _, rfl⟩
    · have bytes : v.kind = .bytes := by
        by_contra other
        exact common other
      cases v with
      | bytes b => exact ⟨.same _, rfl⟩
      | list q => cases bytes
      | hash h => cases bytes
      | set ms => cases bytes
  | incr delta =>
    rcases c with _ | (b | q | h | ms)
    · exact ⟨.same _, rfl⟩
    · exact alike_incr common
    · exact ⟨.failed _ _, rfl⟩
    · exact ⟨.failed _ _, rfl⟩
    · exact ⟨.failed _ _, rfl⟩
  | kind => exact ⟨.same _, rfl⟩
  | listPush value => rcases c with _ | (b | q | h | ms) <;>
      first | exact ⟨.same _, rfl⟩ | exact ⟨.failed _ _, rfl⟩
  | listPop =>
    rcases c with _ | (b | q | h | ms)
    · exact ⟨.same _, rfl⟩
    · exact ⟨.failed _ _, rfl⟩
    · exact alike_pop full common
    · exact ⟨.failed _ _, rfl⟩
    · exact ⟨.failed _ _, rfl⟩
  | listRange start stop => cases compared
  | listLength => rcases c with _ | (b | q | h | ms) <;>
      first | exact ⟨.same _, rfl⟩ | exact ⟨.failed _ _, rfl⟩
  | hashGet field => rcases c with _ | (b | q | h | ms) <;>
      first | exact ⟨.same _, rfl⟩ | exact ⟨.failed _ _, rfl⟩
  | hashSet field value => rcases c with _ | (b | q | h | ms) <;>
      first | exact ⟨.same _, rfl⟩ | exact ⟨.failed _ _, rfl⟩
  | hashDelete field =>
    rcases c with _ | (b | q | h | ms)
    · exact ⟨.same _, rfl⟩
    · exact ⟨.failed _ _, rfl⟩
    · exact ⟨.failed _ _, rfl⟩
    · exact alike_hashDelete full common
    · exact ⟨.failed _ _, rfl⟩
  | hashKeys => rcases c with _ | (b | q | h | ms) <;>
      first | exact ⟨.same _, rfl⟩ | exact ⟨.failed _ _, rfl⟩
  | hashIncr field delta =>
    rcases c with _ | (b | q | h | ms)
    · exact ⟨.same _, rfl⟩
    · exact ⟨.failed _ _, rfl⟩
    · exact ⟨.failed _ _, rfl⟩
    · exact alike_hashIncr common
    · exact ⟨.failed _ _, rfl⟩
  | hashGetAll => cases compared
  | setAdd member => rcases c with _ | (b | q | h | ms) <;>
      first | exact ⟨.same _, rfl⟩ | exact ⟨.failed _ _, rfl⟩
  | setRemove member =>
    rcases c with _ | (b | q | h | ms)
    · exact ⟨.same _, rfl⟩
    · exact ⟨.failed _ _, rfl⟩
    · exact ⟨.failed _ _, rfl⟩
    · exact ⟨.failed _ _, rfl⟩
    · exact alike_setRemove full common
  | setContains member => rcases c with _ | (b | q | h | ms) <;>
      first | exact ⟨.same _, rfl⟩ | exact ⟨.failed _ _, rfl⟩
  | setMembers => rcases c with _ | (b | q | h | ms) <;>
      first | exact ⟨.same _, rfl⟩ | exact ⟨.failed _ _, rfl⟩

theorem full_some {v : MemValue Bytes} (element : v.isEmpty = false) : Full (some v) := by
  rintro w ⟨⟩
  exact element

theorem full_none : Full none := nofun

theorem full_insert (h : Fields Bytes) (field : String) (value : Bytes) :
    Full (some (.hash (h.insert field value))) := by
  apply full_some
  show (h.insert field value).entries.isEmpty = false
  rw [AList.entries_insert]
  rfl

theorem full_writeBack {v : MemValue Bytes} :
    Full (if Backend.valkey = .valkey ∧ v.isEmpty then none else some v) := by
  split
  · exact full_none
  · rename_i kept
    apply full_some
    rw [← Bool.not_eq_true]
    exact fun empty => kept ⟨rfl, empty⟩

theorem full_storeSum {s : Storage Unit Bytes} (full : Full (s.lookup ()))
    (sum : Except (StoreError Unit) Int) {update : Int → MemValue Bytes}
    (stored : ∀ n, Full (some (update n))) :
    Full (((s.storeSum sum (fun n => s.write () (update n))).answer .number).2.lookup ()) := by
  cases sum with
  | error e => exact full
  | ok n =>
    show Full ((s.write () (update n)).lookup ())
    rw [Storage.lookup_write, if_pos rfl]
    exact stored n

/-- Valkey keeps no empty collection. -/
theorem full_left {call : KeyCall} (compared : call.Compared) (full : Full c) :
    Full (call.left .valkey c) := by
  have same : (alone .valkey c).lookup () = c := lookup_alone _ _
  cases call with
  | get => rcases c with _ | (b | q | h | ms) <;> exact full
  | set value => exact full_some rfl
  | delete => cases c <;> exact full_none
  | setWithTtl value ttl => cases compared
  | setTtl ttl => cases compared
  | clearTtl => cases compared
  | setIfAbsent value =>
    rcases c with _ | v
    · exact full_some rfl
    · exact full
  | incr delta =>
    rcases c with _ | (b | q | h | ms)
    · exact full_some rfl
    · exact full_storeSum (s := alone .valkey (some (.bytes b))) full _ (fun _ => full_some rfl)
    · exact full
    · exact full
    · exact full
  | kind => cases c <;> exact full
  | listPush value =>
    rcases c with _ | (b | q | h | ms)
    · exact full_some rfl
    · exact full
    · apply full_some
      show (q ++ [value]).isEmpty = false
      cases q <;> rfl
    · exact full
    · exact full
  | listPop =>
    rcases c with _ | (b | q | h | ms)
    · exact full
    · exact full
    · rw [left_pop]
      exact full_writeBack (v := .list q.tail)
    · exact full
    · exact full
  | listRange start stop => cases compared
  | listLength => rcases c with _ | (b | q | h | ms) <;> exact full
  | hashGet field => rcases c with _ | (b | q | h | ms) <;> exact full
  | hashSet field value =>
    rcases c with _ | (b | q | h | ms)
    · exact full_insert ∅ field value
    · exact full
    · exact full
    · exact full_insert h field value
    · exact full
  | hashDelete field =>
    rcases c with _ | (b | q | h | ms)
    · exact full
    · exact full
    · exact full
    · rw [left_hashDelete]
      exact full_writeBack (v := .hash (h.erase field))
    · exact full
  | hashKeys => rcases c with _ | (b | q | h | ms) <;> exact full
  | hashIncr field delta =>
    rcases c with _ | (b | q | h | ms)
    · exact full_insert ∅ field _
    · exact full
    · exact full
    · exact full_storeSum (s := alone .valkey (some (.hash h))) full _
        (fun _ => full_insert h field _)
    · exact full
  | hashGetAll => cases compared
  | setAdd member =>
    rcases c with _ | (b | q | h | ms)
    · exact full_some rfl
    · exact full
    · exact full
    · exact full
    · apply full_some
      show (ms.toList.insert member).isEmpty = false
      rw [← Bool.not_eq_true, List.isEmpty_iff]
      intro none
      have inside : member ∈ ms.toList.insert member := List.mem_insert_self
      rw [none] at inside
      cases inside
  | setRemove member =>
    rcases c with _ | (b | q | h | ms)
    · exact full
    · exact full
    · exact full
    · exact full
    · rw [left_setRemove]
      exact full_writeBack (v := .set (ms.erase member))
  | setContains member => rcases c with _ | (b | q | h | ms) <;> exact full
  | setMembers => rcases c with _ | (b | q | h | ms) <;> exact full

/-- Where they do, either the answers do not agree or the contents are no longer the same. -/
theorem cell_parts {call : KeyCall} (diverges : call.Diverges c)
    (answers : Agree (call.outcome .inMemory c) (call.outcome .valkey c)) :
    ¬ SameCell (call.left .inMemory c) (call.left .valkey c) := by
  intro same
  cases call with
  | setIfAbsent value =>
    rcases c with _ | v
    · cases diverges
    · cases v with
      | bytes b => exact diverges rfl
      | list q => cases answers
      | hash h => cases answers
      | set ms => cases answers
  | incr delta =>
    rcases c with _ | (b | q | h | ms)
    · cases diverges
    · exact storeSum_parts (s := alone .inMemory (some (.bytes b)))
        (t := alone .valkey (some (.bytes b))) rfl rfl none diverges rfl
        (fun n => .bytes (Decimal.ofInt n)) answers
    · cases diverges
    · cases diverges
    · cases diverges
  | listPop =>
    rcases c with _ | (b | q | h | ms)
    · cases diverges
    · cases diverges
    · obtain ⟨x, rfl⟩ := List.length_eq_one_iff.mp diverges
      exact same
    · cases diverges
    · cases diverges
  | hashDelete field =>
    rcases c with _ | (b | q | h | ms)
    · cases diverges
    · cases diverges
    · cases diverges
    · have gone : (h.erase field).entries.isEmpty = true := by
        have only : h.keys = [field] := diverges
        rw [entries_isEmpty_iff, AList.keys_erase, only, List.erase_cons_head]
      rw [left_hashDelete, left_hashDelete, if_neg (by nofun), if_pos ⟨rfl, gone⟩] at same
      exact same
    · cases diverges
  | hashIncr field delta =>
    rcases c with _ | (b | q | h | ms)
    · cases diverges
    · cases diverges
    · cases diverges
    · obtain ⟨b, held, misread⟩ := diverges
      exact storeSum_parts (s := alone .inMemory (some (.hash h)))
        (t := alone .valkey (some (.hash h))) rfl rfl (some field) misread held
        (fun n => .hash (h.insert field (Decimal.ofInt n))) answers
    · cases diverges
  | setRemove member =>
    rcases c with _ | (b | q | h | ms)
    · cases diverges
    · cases diverges
    · cases diverges
    · cases diverges
    · have only : ms.toList = [member] := diverges
      have gone : (ms.erase member).toList.isEmpty = true := by
        show (ms.toList.erase member).isEmpty = true
        rw [only, List.erase_cons_head]
        rfl
      rw [left_setRemove, left_setRemove, if_neg (by nofun), if_pos ⟨rfl, gone⟩] at same
      exact same
  | _ => cases diverges

end Cells

/-! Runs -/

theorem same_cell (c : Cell) : SameCell c c := by
  rcases c with _ | (b | q | h | ms)
  · trivial
  · exact rfl
  · exact rfl
  · exact fun _ => rfl
  · exact fun _ => Iff.rfl

/-- The same contents on both backends, and no empty collection. -/
structure Mirrored (m v : Backing) : Prop where
  memory : m.backend = .inMemory
  valkey : v.backend = .valkey
  cells : ∀ k, m.lookup k = v.lookup k
  full : ∀ k, Full (m.lookup k)

theorem mirrored_empty : Mirrored (Storage.empty .inMemory) (Storage.empty .valkey) where
  memory := rfl
  valkey := rfl
  cells := fun _ => rfl
  full := fun _ => full_none

theorem Agree.mapError {E F E' F' : Type} {a : Except E Answer} {b : Except F Answer}
    (agree : Agree a b) (f : E → E') (g : F → F') : Agree (a.mapError f) (b.mapError g) := by
  cases agree with
  | failed e e' => exact .failed (f e) (g e')
  | same a => exact .same a
  | names same => exact .names same

theorem agree_of_mapError {E F E' F' : Type} {a : Except E Answer} {b : Except F Answer}
    {f : E → E'} {g : F → F'} (agree : Agree (a.mapError f) (b.mapError g)) : Agree a b := by
  cases a with
  | error e =>
    cases b with
    | error e' => exact .failed e e'
    | ok y => cases agree
  | ok x =>
    cases b with
    | error e' => cases agree
    | ok y =>
      cases agree with
      | same _ => exact .same x
      | names same => exact .names same

section Steps
variable {reporting : Reporting} {m v : Backing} (mirrored : Mirrored m v) {p : String}
include mirrored

theorem contents_mirrored : SameContents m v := by
  intro k
  rw [mirrored.cells k]
  exact same_cell _

theorem mirrored_on {key : String} {call : KeyCall} (compared : call.Compared)
    (common : ¬ call.Diverges (m.lookup (p ++ key))) :
    Agree ((BucketCall.on key call).perform reporting p m).1
        ((BucketCall.on key call).perform reporting p v).1 ∧
      Mirrored ((BucketCall.on key call).perform reporting p m).2
        ((BucketCall.on key call).perform reporting p v).2 := by
  have alike := cell_alike compared (mirrored.full (p ++ key)) common
  constructor
  · rw [answer_on, answer_on, mirrored.memory, mirrored.valkey, ← mirrored.cells]
    exact alike.answers.mapError _ _
  · refine ⟨(backend_perform p m _).trans mirrored.memory,
      (backend_perform p v _).trans mirrored.valkey, ?_, ?_⟩
    · intro k
      rw [lookup_on, lookup_on, mirrored.memory, mirrored.valkey, ← mirrored.cells,
        ← mirrored.cells k, alike.left]
    · intro k
      rw [lookup_on, mirrored.memory]
      split
      · rw [alike.left]
        exact full_left compared (mirrored.full (p ++ key))
      · exact mirrored.full k

theorem mirrored_listKeys (bucket : IsBucket p) {userPrefix : Option String}
    (plain : Glob.Literal (utf8Bytes (userPrefix.getD ""))) :
    Agree ((BucketCall.listKeys userPrefix).perform reporting p m).1
      ((BucketCall.listKeys userPrefix).perform reporting p v).1 := by
  have given : ∀ s, listKeys reporting p userPrefix s =
      listKeys reporting p (some (userPrefix.getD "")) s := fun _ => rfl
  have whole : Glob.Literal (utf8Bytes (p ++ userPrefix.getD "")) := by
    rw [utf8Bytes_append]
    intro b member
    rcases List.mem_append.mp member with first | second
    · exact literal_bucket bucket b first
    · exact plain b second
  apply Agree.names
  intro key
  rw [given, given, mem_listed (literal_bucket bucket), mem_listed (literal_bucket bucket),
    mem_scanWithPrefix whole, mem_scanWithPrefix whole, mirrored.cells]

theorem mirrored_step (bucket : IsBucket p) {call : BucketCall} (compared : call.Compared)
    (common : ¬ call.Diverges p m) :
    Agree (call.perform reporting p m).1 (call.perform reporting p v).1 ∧
      Mirrored (call.perform reporting p m).2 (call.perform reporting p v).2 := by
  cases call with
  | on key call => exact mirrored_on mirrored compared common
  | listKeys userPrefix => exact ⟨mirrored_listKeys mirrored bucket compared, mirrored⟩
  | deleteWithPrefix userPrefix => exact compared.elim

/-- After a call at which the backends part, either the answers or the contents tell. -/
theorem parted_step {call : BucketCall} (parts : call.Diverges p m)
    (answers : Agree (call.perform reporting p m).1 (call.perform reporting p v).1) :
    ¬ SameContents (call.perform reporting p m).2 (call.perform reporting p v).2 := by
  intro contents
  cases call with
  | on key call =>
    have here := contents (p ++ key)
    rw [lookup_on, lookup_on, if_pos rfl, if_pos rfl, mirrored.memory, mirrored.valkey,
      ← mirrored.cells] at here
    rw [answer_on, answer_on, mirrored.memory, mirrored.valkey, ← mirrored.cells] at answers
    exact cell_parts parts (agree_of_mapError answers) here
  | listKeys userPrefix => exact parts
  | deleteWithPrefix userPrefix => exact parts

end Steps

theorem contents_of_equivalent {reporting : Reporting} {calls : BucketRun} {m v : Backing}
    (equivalent : Equivalent reporting calls m v) : SameContents m v := by
  cases calls with
  | nil => exact equivalent
  | cons call rest => exact equivalent.1

theorem equivalent_iff_common {reporting : Reporting} {calls : BucketRun} {m v : Backing}
    (mirrored : Mirrored m v) (compared : ∀ c ∈ calls, IsBucket c.1 ∧ c.2.Compared) :
    Equivalent reporting calls m v ↔ Common reporting calls m := by
  induction calls generalizing m v with
  | nil => exact iff_of_true (contents_mirrored mirrored) trivial
  | cons first rest ih =>
    obtain ⟨p, call⟩ := first
    obtain ⟨bucket, here⟩ := compared (p, call) List.mem_cons_self
    by_cases parts : call.Diverges p m
    · refine iff_of_false ?_ (fun common => common.1 parts)
      rintro ⟨_, answers, later⟩
      exact parted_step mirrored parts answers (contents_of_equivalent later)
    · have step : Agree (call.perform reporting p m).1 (call.perform reporting p v).1 ∧ _ :=
        mirrored_step mirrored bucket here parts
      obtain ⟨answers, next⟩ := step
      have tail := ih next (fun c member => compared c (List.mem_cons_of_mem _ member))
      constructor
      · rintro ⟨_, _, later⟩
        exact ⟨parts, tail.mp later⟩
      · rintro ⟨_, later⟩
        exact ⟨contents_mirrored mirrored, answers, tail.mpr later⟩

theorem backends_equivalent_iff (reporting : Reporting) (calls : BucketRun)
    (compared : ∀ c ∈ calls, IsBucket c.1 ∧ c.2.Compared) :
    Equivalent reporting calls (Storage.empty .inMemory) (Storage.empty .valkey) ↔
      Common reporting calls (Storage.empty .inMemory) :=
  equivalent_iff_common mirrored_empty compared

namespace Sample

def cartsBucket : String := groupBucket "01J9ZK6C3N0000000000000A01"

theorem carts_isBucket : IsBucket cartsBucket :=
  .group "" "01J9ZK6C3N0000000000000A01" .stored (by decide +kernel)

/-- A list that is filled and read. -/
def filled : BucketRun :=
  [(cartsBucket, .on "cart" (.listPush [1])), (cartsBucket, .on "cart" .listLength)]

/-- A list that loses its only element. -/
def emptied : BucketRun :=
  [(cartsBucket, .on "cart" (.listPush [1])), (cartsBucket, .on "cart" .listPop),
    (cartsBucket, .on "cart" .kind)]

end Sample

open Sample in
theorem backends_equivalent_filled :
    Equivalent reported filled (Storage.empty .inMemory) (Storage.empty .valkey) := by
  apply (backends_equivalent_iff reported filled ?_).mpr
  · refine ⟨fun parts => parts, fun parts => ?_, trivial⟩
    exact parts
  · intro c member
    simp only [filled, List.mem_cons, List.not_mem_nil, or_false] at member
    rcases member with rfl | rfl
    · exact ⟨carts_isBucket, rfl⟩
    · exact ⟨carts_isBucket, rfl⟩

theorem agree_kind {E F : Type} {a : Except E Answer} {b : Except F Answer} {k l : Option Kind}
    (agree : Agree a b) (first : a.toOption = some (.kind k))
    (second : b.toOption = some (.kind l)) : k = l := by
  cases agree with
  | failed e f => cases first
  | same answer =>
    cases first
    cases second
    rfl
  | names same => cases first

open Sample in
theorem backends_part_emptied :
    (∀ c ∈ emptied, IsBucket c.1 ∧ c.2.Compared) ∧
      ¬ Equivalent reported emptied (Storage.empty .inMemory) (Storage.empty .valkey) := by
  constructor
  · intro c member
    simp only [emptied, List.mem_cons, List.not_mem_nil, or_false] at member
    rcases member with rfl | rfl | rfl
    · exact ⟨carts_isBucket, rfl⟩
    · exact ⟨carts_isBucket, rfl⟩
    · exact ⟨carts_isBucket, rfl⟩
  · rintro ⟨_, _, _, _, _, answers, _⟩
    exact absurd (agree_kind (k := some .list) (l := none) answers (by decide +kernel)
      (by decide +kernel)) (by decide)

end WireMirage
