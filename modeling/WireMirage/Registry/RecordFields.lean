import WireMirage.Registry.Commands
import WireMirage.Registry.Edits

/-!
Laws about the fields of records. The record of a group or of a route is a hash that is written
field by field, so a law about single fields holds of it at every moment, half stored or not.
-/
namespace WireMirage
open Prog

/-- The id that the key of a record is made of. -/
def Key.recordId : Key → Option String
  | .group gid => some gid
  | .route rid => some rid
  | _ => none

theorem recordId_family {k : Key} {x : String} (record : k.recordId = some x) :
    k.family = some .hash := by
  cases k <;> simp_all [Key.recordId]

/-- Every field under the key of a record is as the law says. -/
structure Lawful (law : Key → String → Val → Prop) (s : Store) : Prop where
  kinded : s.WellKinded
  fields : ∀ (k : Key) (x f : String) (v : Val), k.recordId = some x →
    (s.hashAt k).lookup f = some v → law k f v

/-- The commands that put no field against the law. -/
def Obeys (law : Key → String → Val → Prop) : Command Key Val → Prop
  | .setField k f v => ∀ x, k.recordId = some x → law k f v
  | _ => True

section Laws
variable {law : Key → String → Val → Prop} {s : Store}

theorem lawful_empty (b : Backend) : Lawful law (Storage.empty b) where
  kinded := Storage.wellKinded_empty b
  fields := by simp

theorem lawful_command (c : Command Key Val) (obeys : Obeys law c) (typed : c.Typed)
    (hold : Lawful law s) : Lawful law (c.apply s) where
  kinded := c.wellKinded_apply typed hold.kinded
  fields := by
    intro k x f v record found
    have family : KeyKinds.kindOf k = some .hash := by simpa using recordId_family record
    rcases c.field_apply typed family s f with ⟨w, rfl, set_⟩ | ⟨_, cleared⟩ | same
    · rw [set_, Option.some.injEq] at found
      exact found ▸ obeys x record
    · rw [cleared] at found
      cases found
    · exact hold.fields k x f v record (same ▸ found)

theorem lawful_advance (seconds : Nat) (hold : Lawful law s) :
    Lawful law (s.advance seconds) where
  kinded := Storage.wellKinded_advance hold.kinded seconds
  fields := by
    intro k x f v record found
    rw [Storage.hashAt_advance] at found
    split at found
    · simp at found
    · exact hold.fields k x f v record found

theorem lawful_elsewhere {t : Store} (kinded : t.WellKinded)
    (same : ∀ (k : Key) (x : String), k.recordId = some x → t.lookup k = s.lookup k)
    (hold : Lawful law s) : Lawful law t where
  kinded := kinded
  fields := by
    intro k x f v record found
    unfold Storage.hashAt at found
    rw [same k x record] at found
    exact hold.fields k x f v record found

theorem lawful_stateOp {k : Key} (free : k.family = none) (op : StateOp)
    (hold : Lawful law s) : Lawful law (op.apply k s) := by
  have stays : ∀ k' kind, k'.family = some kind → (op.apply k s).lookup k' = s.lookup k' := by
    intro k' kind typed
    apply lookup_stateOp
    rintro rfl
    rw [free] at typed
    cases typed
  apply lawful_elsewhere _ (fun k' x record => stays k' .hash (recordId_family record)) hold
  intro k' v kind found typed
  rw [kind_of_key] at typed
  rw [stays k' kind typed] at found
  exact hold.kinded k' v kind found typed

theorem keeps_obeying {A : Type} {Err : Type} {p : Prog Store Err A} (acts : Acts (Obeys law) p) :
    Keeps (Lawful law) p :=
  keeps_of_acts (fun _ hold => hold.kinded)
    (fun c _ obeys typed hold => lawful_command c obeys typed hold) p acts

/-! Programs that leave the records alone -/

theorem keeps_puts (key : String → Key) (free : ∀ x, (key x).family = none)
    (state : List (String × Bytes)) :
    Keeps (Lawful law)
      (Prog.forEach state (fun e => Bucket.set (key e.1) (.blob e.2)) : Reg Unit) := by
  apply keeps_forEach
  intro e _
  apply keeps_atomic
  intro s hold
  exact lawful_stateOp (free e.1) (.set e.2) hold

theorem keeps_recordUnmatched (entry : NewUnmatchedEntry) (id : String) (now : Time) :
    Keeps (Lawful law) (recordUnmatched entry id now) := by
  have counted : Keeps (Lawful law) (Bucket.incr .unmatchedCounter 1 : Jnl Int) := by
    apply keeps_atomic
    intro s hold
    rw [Storage.incr_eq hold.kinded (by simp)]
    unfold Storage.storeSum
    split
    · exact hold
    · apply lawful_elsewhere
        (Storage.wellKinded_write (k := .unmatchedCounter) hold.kinded _
          (by simp [MemValue.kind])) _ hold
      intro k x record
      rw [Storage.lookup_write, if_neg]
      rintro rfl
      cases record
  refine keeps_bind _ _ counted (fun n => keeps_obeying ?_)
  exact acts_bind _ _ (acts_setWithTtl rfl trivial) fun _ => acts_bind _ _ (acts_set rfl trivial)
    fun _ => trivial

end Laws

end WireMirage
