import WireMirage.Registry.StoredPaths
import WireMirage.Store.Handles

/-!
What the fields of stored records are: names that pass the check of a label, lifetimes within
their bound, methods and paths as they were checked, and texts that the caller vouches for.
-/
namespace WireMirage
open Prog StepMachine

/-! Generated names pass the check that chosen ones do -/

/-- A text that may start and end a label. -/
def Word (s : String) : Prop := s.toList ≠ [] ∧ ∀ c ∈ s.toList, c.isLower ∨ c.isDigit

theorem Word.edge {s : String} (word : Word s) {c : Char} (member : c ∈ s.toList) : c ≠ '-' := by
  rintro rfl
  rcases word.2 _ member with lower | digit
  · cases lower
  · cases digit

theorem Word.labels {s : String} (word : Word s) {c : Char} (member : c ∈ s.toList) :
    labelChar c = true := by
  unfold labelChar
  rcases word.2 c member with lower | digit
  · rw [lower]
    rfl
  · rw [digit, Bool.or_true]
    rfl

theorem label_of_words {front middle back : String} (first : Word front) (last : Word back)
    (between : ∀ c ∈ middle.toList, labelChar c = true)
    (short : (front ++ middle ++ back).utf8ByteSize ≤ maxLabelLen) :
    isValidLabel (front ++ middle ++ back) = true := by
  have chars : (front ++ middle ++ back).toList = front.toList ++ middle.toList ++ back.toList := by
    rw [String.toList_append, String.toList_append]
  have nonempty : (front ++ middle ++ back).utf8ByteSize ≠ 0 := by
    intro zero
    rw [String.utf8ByteSize_eq_zero_iff] at zero
    rw [zero] at chars
    exact first.1 (List.append_eq_nil_iff.mp (List.append_eq_nil_iff.mp chars.symm).1).1
  have starts : (front ++ middle ++ back).toList.head? ≠ some '-' := by
    rw [chars, List.append_assoc, List.head?_append_of_ne_nil _ first.1]
    intro dash
    exact first.edge (List.mem_of_head? dash) rfl
  have ends : (front ++ middle ++ back).toList.getLast? ≠ some '-' := by
    rw [chars, List.getLast?_append_of_ne_nil _ last.1]
    intro dash
    exact last.edge (List.mem_of_getLast? dash) rfl
  have labels : (front ++ middle ++ back).toList.all labelChar = true := by
    rw [chars, List.all_eq_true]
    intro c member
    simp only [List.mem_append] at member
    rcases member with (inFront | inMiddle) | inBack
    · exact first.labels inFront
    · exact between c inMiddle
    · exact last.labels inBack
  unfold isValidLabel
  rw [if_neg (by omega), if_neg (by rintro (dash | dash); exacts [starts dash, ends dash])]
  exact labels

/-- The words of the lists, as far as a label is concerned. -/
def plainWord (w : String) : Bool :=
  w.toList ≠ [] ∧ w.utf8ByteSize ≤ 8 ∧ w.toList.all (fun c => c.isLower)

theorem words_plain : (adjectives ++ nouns).all plainWord = true := by decide +kernel

theorem word_of_listed {w : String} (listed : w ∈ adjectives ++ nouns) :
    Word w ∧ w.utf8ByteSize ≤ 8 := by
  have plain := List.all_eq_true.mp words_plain w listed
  simp only [plainWord, Bool.decide_and, Bool.and_eq_true, decide_eq_true_eq,
    List.all_eq_true] at plain
  exact ⟨⟨plain.1, fun c member => .inl (plain.2.2 c member)⟩, plain.2.1⟩

theorem word_of_number (n : Nat) : Word (toString n) := by
  refine ⟨?_, ?_⟩
  · rw [Nat.toString_eq_ofList_toDigits, String.toList_ofList]
    exact Nat.toDigits_ne_nil
  · intro c member
    rw [Nat.toString_eq_ofList_toDigits, String.toList_ofList] at member
    exact .inr (Nat.isDigit_of_mem_toDigits (by decide) (by decide) member)

theorem number_size {n : Nat} (bound : n < u32Size) : (toString n).utf8ByteSize ≤ 40 := by
  have wide := utf8ByteSize_le (toString n)
  have digits : (toString n).length ≤ 10 := by
    rw [Nat.toString_eq_ofList_toDigits, String.length_ofList]
    exact Nat.toDigits_length 10 n 10 (by decide) (bound.trans (by decide))
  omega

theorem dash_labels {c : Char} (member : c ∈ "-".toList) : labelChar c = true := by
  obtain rfl : c = '-' := by simpa using member
  rfl

theorem valid_generated (draw : Draw) : isValidLabel (generate draw) = true := by
  obtain ⟨first, short⟩ :=
    word_of_listed (List.mem_append_left nouns (List.get_mem adjectives draw.1))
  obtain ⟨last, brief⟩ :=
    word_of_listed (List.mem_append_right adjectives (List.get_mem nouns draw.2))
  have dash : "-".utf8ByteSize = 1 := rfl
  apply label_of_words first last fun _ => dash_labels
  simp only [String.utf8ByteSize_append, maxLabelLen]
  omega

theorem valid_numbered (draw : Draw) {n : Nat} (bound : n < u32Size) :
    isValidLabel (generate draw ++ "-" ++ toString n) = true := by
  obtain ⟨first, short⟩ :=
    word_of_listed (List.mem_append_left nouns (List.get_mem adjectives draw.1))
  obtain ⟨last, brief⟩ :=
    word_of_listed (List.mem_append_right adjectives (List.get_mem nouns draw.2))
  have dash : "-".utf8ByteSize = 1 := rfl
  have digits := number_size bound
  have parts : generate draw ++ "-" ++ toString n =
      adjectives.get draw.1 ++ ("-" ++ nouns.get draw.2 ++ "-") ++ toString n := by
    simp only [generate, String.append_assoc]
  rw [parts]
  apply label_of_words first (word_of_number n)
  · intro c member
    simp only [String.toList_append, List.mem_append] at member
    rcases member with (dash | inNoun) | dash
    · exact dash_labels dash
    · exact last.labels inNoun
    · exact dash_labels dash
  · simp only [String.utf8ByteSize_append, maxLabelLen]
    omega

theorem yields_generateGroupName (draw : Nat → Draw) :
    Yields (fun name => isValidLabel name = true) (generateGroupName draw) := by
  have names : ∀ draws : List Draw,
      Yields (fun name => ∀ n, name = some n → isValidLabel n = true) (firstFreeName draws) := by
    intro draws
    induction draws with
    | nil => exact fun _ none => nomatch none
    | cons d rest ih =>
      apply yields_bind
      rintro (_ | v)
      · intro n same
        cases same
        exact valid_generated d
      · exact ih
  have numbers : ∀ fuel n, n + fuel ≤ u32Size →
      Yields (fun name => isValidLabel name = true)
        (firstFreeNumber (generate (draw 8)) fuel n) := by
    intro fuel
    induction fuel with
    | zero => exact fun n _ => trivial
    | succ fuel ih =>
      intro n within
      apply yields_bind
      rintro (_ | v)
      · exact valid_numbered (draw 8) (by omega)
      · exact ih (n + 1) (by omega)
  refine yields_after (names _) ?_
  rintro (_ | name) valid
  · exact numbers _ 2 (by decide)
  · exact valid name rfl

theorem yields_newGroupName (name : String) (draw : Nat → Draw) :
    Yields (fun name => isValidLabel name = true) (newGroupName name draw) := by
  unfold newGroupName
  split
  · exact yields_generateGroupName draw
  · split
    · trivial
    · rename_i valid
      apply yields_bind
      rintro (_ | v)
      · exact of_not_not valid
      · trivial

/-! The law of the fields -/

/-- The record of a group: its name could be a subdomain, its lifetime is within the bound. -/
structure GroupField (f : String) (v : Val) : Prop where
  name : f = "name" → ∃ name, v = .text name ∧ isValidLabel name = true
  ttlSeconds : f = "ttl_seconds" → ∃ n : Nat, v = .int n ∧ n ≤ maxGroupTtlSeconds

/-- The record of a route: what the registry checks, and what its callers vouch for. -/
structure RouteField (languages sources : String → Prop) (f : String) (v : Val) : Prop where
  methods : f = "methods" → ∃ ms out, v = .methods ms ∧ validateMethods ms = .ok out
  path : f = "path" → ∃ p : Pattern, Pattern.parse p.raw = .ok p ∧ v = .text p.raw
  language : f = "language" → ∃ lang, v = .text lang ∧ languages lang
  source : f = "source" → ∃ src, v = .text src ∧ sources src

def Accepted (languages sources : String → Prop) : Key → String → Val → Prop
  | .group _, f, v => GroupField f v
  | .route _, f, v => RouteField languages sources f v
  | _, _, _ => True

section Fields
variable {languages sources : String → Prop} {f : String} {v : Val}

theorem groupField_plain (other : f ∉ ["name", "ttl_seconds"]) : GroupField f v := by
  constructor <;> rintro rfl <;> simp at other

theorem routeField_plain (other : f ∉ ["methods", "path", "language", "source"]) :
    RouteField languages sources f v := by
  constructor <;> rintro rfl <;> simp at other

theorem groupField_name {name : String} (valid : isValidLabel name = true) :
    GroupField "name" (.text name) where
  name _ := ⟨name, rfl, valid⟩
  ttlSeconds other := by simp at other

theorem groupField_ttl {n : Nat} (bound : n ≤ maxGroupTtlSeconds) :
    GroupField "ttl_seconds" (.int n) where
  name other := by simp at other
  ttlSeconds _ := ⟨n, rfl, bound⟩

theorem routeField_methods {ms out : List String} (valid : validateMethods ms = .ok out) :
    RouteField languages sources "methods" (.methods ms) where
  methods _ := ⟨ms, out, rfl, valid⟩
  path other := by simp at other
  language other := by simp at other
  source other := by simp at other

theorem routeField_path {raw : String} {p : Pattern} (parsed : Pattern.parse raw = .ok p) :
    RouteField languages sources "path" (.text p.raw) where
  methods other := by simp at other
  path _ := ⟨p, parse_raw parsed, rfl⟩
  language other := by simp at other
  source other := by simp at other

theorem routeField_language {lang : String} (known : languages lang) :
    RouteField languages sources "language" (.text lang) where
  methods other := by simp at other
  path other := by simp at other
  language _ := ⟨lang, rfl, known⟩
  source other := by simp at other

theorem routeField_source {src : String} (known : sources src) :
    RouteField languages sources "source" (.text src) where
  methods other := by simp at other
  path other := by simp at other
  language other := by simp at other
  source _ := ⟨src, rfl, known⟩

variable {s : Store} (hold : Lawful (Accepted languages sources) s)
include hold

theorem group_accepted {gid : String} {g : Group} (record : GroupAt s gid g) :
    isValidLabel g.name = true ∧ g.ttlSeconds ≤ maxGroupTtlSeconds := by
  obtain ⟨name, named, valid⟩ :=
    (hold.fields (.group gid) gid "name" _ rfl record.name).name rfl
  obtain ⟨n, counted, bound⟩ :=
    (hold.fields (.group gid) gid "ttl_seconds" _ rfl record.ttlSeconds.1).ttlSeconds rfl
  cases named
  cases counted
  exact ⟨valid, bound⟩

/-- What the record of a route shows of what was checked. -/
structure RouteAccepted (languages sources : String → Prop) (r : Route) : Prop where
  methods : validateMethods r.methods = .ok r.methods
  path : ∃ p : Pattern, Pattern.parse r.path = .ok p ∧ p.raw = r.path
  language : languages r.language
  source : ∀ src, r.source = some src → sources src

theorem route_accepted {rid : String} {r : Route} (record : RouteAt s rid r) :
    RouteAccepted languages sources r := by
  have field : ∀ f v, (s.hashAt (.route rid)).lookup f = some v →
      RouteField languages sources f v :=
    fun f v found => hold.fields (.route rid) rid f v rfl found
  obtain ⟨ms, out, listed, valid⟩ := (field _ _ record.methods).methods rfl
  obtain ⟨p, parsed, written⟩ := (field _ _ record.path).path rfl
  obtain ⟨lang, spoken, known⟩ := (field _ _ record.language).language rfl
  cases listed
  cases spoken
  have text : p.raw = r.path := (Val.text.inj written).symm
  refine ⟨(validate_methods_ok valid).1 ▸ valid, ⟨p, text ▸ parsed, text⟩, known, ?_⟩
  intro src named
  have read : ((s.hashAt (.route rid)).lookup "source").bind Val.utf8 = some src :=
    record.source.trans named
  obtain ⟨v, stored, text⟩ := Option.bind_eq_some_iff.mp read
  rw [val_utf8_iff] at text
  obtain ⟨src', same, fits⟩ := (field _ _ stored).source rfl
  cases text.symm.trans same
  exact fits

end Fields

/-! What the operations of the registry write -/

section Operations
variable {languages sources : String → Prop}

theorem normalizeTtl_ok {asked n : Nat} (ok : normalizeTtl asked = .ok n) :
    n = asked ∧ n ≤ maxGroupTtlSeconds := by
  unfold normalizeTtl at ok
  split at ok
  · cases ok
  · cases ok
    exact ⟨rfl, by omega⟩

theorem acts_groupField {gid f : String} {v : Val} (field : GroupField f v) :
    Acts (Obeys (Accepted languages sources)) (Bucket.hashSet (.group gid) f v : Reg Unit) :=
  acts_hashSet rfl (fun _ _ => field)

theorem acts_routeField {rid f : String} {v : Val} (field : RouteField languages sources f v) :
    Acts (Obeys (Accepted languages sources)) (Bucket.hashSet (.route rid) f v : Reg Unit) :=
  acts_hashSet rfl (fun _ _ => field)

theorem accepted_storeGroup {g : Group} (valid : isValidLabel g.name = true)
    (bound : g.ttlSeconds ≤ maxGroupTtlSeconds) :
    Acts (Obeys (Accepted languages sources)) (storeGroup g) := by
  have plain : ∀ f v, f ∉ ["name", "ttl_seconds"] → Acts (Obeys (Accepted languages sources))
      (Bucket.hashSet (.group g.id) f v : Reg Unit) :=
    fun f v other => acts_groupField (groupField_plain other)
  have writes : Acts (Obeys (Accepted languages sources)) (writeGroup g) :=
    acts_bind _ _ (plain _ _ (by decide)) fun _ =>
      acts_bind _ _ (acts_groupField (groupField_name valid)) fun _ =>
      acts_bind _ _ (plain _ _ (by decide)) fun _ => acts_bind _ _ (plain _ _ (by decide)) fun _ =>
      acts_bind _ _ (plain _ _ (by decide)) fun _ =>
      acts_bind _ _ (acts_groupField (groupField_ttl bound)) fun _ =>
      acts_bind _ _ (plain _ _ (by decide)) fun _ => acts_bind _ _ (plain _ _ (by decide)) fun _ =>
      acts_bind _ _ (acts_set rfl trivial) fun _ => acts_bind _ _ (acts_setAdd rfl trivial) fun _ =>
      acts_setAdd rfl trivial
  exact acts_bind _ _ writes fun _ => acts_bind _ _ (obeys_armGroupTtls _ _ _) fun _ => trivial

theorem accepted_createGroup (params : NewGroup) (id : String) (now : Time) (draw : Nat → Draw) :
    Acts (Obeys (Accepted languages sources)) (createGroup params id now draw) :=
  acts_yielding (acts_newGroupName _ _) (yields_newGroupName _ _) fun _ valid =>
    acts_afterOk fun _ normal => accepted_storeGroup valid (normalizeTtl_ok normal).2

theorem accepted_createImplicitGroup (owner id : String) (now : Time) (draw : Nat → Draw) :
    Acts (Obeys (Accepted languages sources)) (createImplicitGroup owner id now draw) :=
  acts_yielding (acts_generateGroupName draw) (yields_generateGroupName draw) fun _ valid =>
    accepted_storeGroup valid (show defaultGroupTtlSeconds ≤ maxGroupTtlSeconds by decide)

theorem accepted_storeRoute {r : Route} {raw : String} {p : Pattern} {out : List String}
    (parsed : Pattern.parse raw = .ok p) (path : r.path = p.raw)
    (valid : validateMethods r.methods = .ok out) (language : languages r.language)
    (source : ∀ src, r.source = some src → sources src) :
    Acts (Obeys (Accepted languages sources)) (storeRoute r) := by
  have plain : ∀ f v, f ∉ ["methods", "path", "language", "source"] →
      Acts (Obeys (Accepted languages sources)) (Bucket.hashSet (.route r.id) f v : Reg Unit) :=
    fun f v other => acts_routeField (routeField_plain other)
  have named : Acts (Obeys (Accepted languages sources))
      (Bucket.hashSet (.route r.id) "path" (.text r.path) : Reg Unit) := by
    rw [path]
    exact acts_routeField (routeField_path parsed)
  have writes : Acts (Obeys (Accepted languages sources)) (writeRoute r) := by
    unfold writeRoute
    refine acts_bind _ _ (plain _ _ (by decide)) fun _ =>
      acts_bind _ _ (plain _ _ (by decide)) fun _ => acts_bind _ _ (plain _ _ (by decide)) fun _ =>
      acts_bind _ _ (plain _ _ (by decide)) fun _ =>
      acts_bind _ _ (acts_routeField (routeField_methods valid)) fun _ =>
      acts_bind _ _ named fun _ =>
      acts_bind _ _ (acts_routeField (routeField_language language)) fun _ =>
      acts_bind _ _ (plain _ _ (by decide)) fun _ =>
      acts_bind _ _ (plain _ _ (by decide)) fun _ => ?_
    have last := acts_bind _ _ (plain "created_at" (.time r.createdAt) (by decide))
      (fun _ => plain "owner_id" (.text r.ownerId) (by decide))
    cases origin : r.source with
    | none => exact acts_bind _ _ (acts_hashDelete rfl trivial) (fun _ => last)
    | some src =>
      exact acts_bind _ _ (acts_routeField (routeField_source (source src origin))) (fun _ => last)
  exact acts_bind _ _ writes fun _ => acts_bind _ _ (acts_set rfl trivial) fun _ =>
    acts_bind _ _ (acts_setAdd rfl trivial) fun _ => acts_bind _ _ (acts_setAdd rfl trivial)
    fun _ => acts_setAdd rfl trivial

theorem accepted_createRoute [UlidText] {params : NewRoute} (language : languages params.language)
    (source : ∀ src, params.source = some src → sources src) (ids : NewIds) (now : Time)
    (draw : Nat → Draw) :
    Acts (Obeys (Accepted languages sources)) (createRoute params ids now draw) := by
  apply acts_afterOk
  intro pattern parsed
  apply acts_afterOk
  intro methods valid
  refine acts_bind _ _ ?_ fun g => acts_bind _ _ (acts_scanPatternConflict _ _ _ _) fun _ =>
    acts_bind _ _ (acts_hashIncr rfl (fun _ _ record => nomatch record)) fun _ =>
    acts_bind _ _ (accepted_storeRoute (parsePath_ok parsed) rfl valid language source) fun _ =>
    trivial
  unfold targetGroup
  split
  · exact acts_bind _ _ (acts_resolved _) (fun gid => acts_readGroup gid)
  · exact accepted_createImplicitGroup _ _ _ _

theorem accepted_patchField {A : Type} {rid f : String} {encode : A → Val} {o : Option A}
    (field : ∀ a, o = some a → RouteField languages sources f (encode a)) :
    Acts (Obeys (Accepted languages sources)) (patchField (.route rid) f encode o) := by
  cases o with
  | none => trivial
  | some a => exact acts_routeField (field a rfl)

theorem accepted_updateRoute [UlidText] (groupRef : String) (number : Nat) {patch : PatchRoute}
    (language : ∀ lang, patch.language = some lang → languages lang)
    (source : ∀ src, patch.source = some (some src) → sources src) :
    Acts (Obeys (Accepted languages sources)) (updateRoute groupRef number patch) := by
  refine acts_bind _ _ (acts_routeIdBySlug groupRef number) fun rid =>
    acts_bind _ _ (acts_readRoute rid) fun r => ?_
  apply acts_afterOk
  intro methods validated
  apply acts_afterOk
  intro newPath patched
  have check : Acts (Obeys (Accepted languages sources))
      (checkPatchConflict patch r methods newPath) := by
    unfold checkPatchConflict
    split
    · exact acts_bind _ _ (acts_ofExcept _) (fun _ => acts_scanPatternConflict _ _ _ _)
    · trivial
  have listed : ∀ ms, patch.methods = some ms →
      RouteField languages sources "methods" (.methods ms) := by
    intro ms given
    unfold patchedMethods at validated
    rw [given] at validated
    cases valid : validateMethods ms with
    | error e => simp [valid, Except.map] at validated
    | ok out => exact routeField_methods valid
  have placed : ∀ path, patch.path.map (fun _ => newPath) = some path →
      RouteField languages sources "path" (.text path) := by
    intro path given
    obtain ⟨text, asked, rfl⟩ := Option.map_eq_some_iff.mp given
    unfold patchedPath at patched
    rw [asked] at patched
    cases parsed : parsePath text with
    | error e => simp [parsed, Except.map] at patched
    | ok p =>
      simp only [parsed, Except.map, Except.ok.injEq] at patched
      rw [← patched]
      exact routeField_path (parsePath_ok parsed)
  have sourced : Acts (Obeys (Accepted languages sources))
      (patchSource (.route rid) patch.source) := by
    rcases origin : patch.source with _ | _ | src
    · trivial
    · exact acts_hashDelete rfl trivial
    · exact acts_routeField (routeField_source (source src origin))
  exact acts_bind _ _ check fun _ => acts_bind _ _ (accepted_patchField listed) fun _ =>
    acts_bind _ _ (accepted_patchField placed) fun _ =>
    acts_bind _ _ (accepted_patchField fun lang given =>
      routeField_language (language lang given)) fun _ =>
    acts_bind _ _ (accepted_patchField fun _ _ => routeField_plain (by decide)) fun _ =>
    acts_bind _ _ (accepted_patchField fun _ _ => routeField_plain (by decide)) fun _ =>
    acts_bind _ _ sourced fun _ => trivial

theorem accepted_renameGroup [UlidText] (groupRef newName : String) :
    Acts (Obeys (Accepted languages sources)) (renameGroup groupRef newName) := by
  have routes (gid : String) :
      Acts (Obeys (Accepted languages sources)) (renameRoutes gid newName) :=
    acts_bind _ _ (acts_listRoutesFrom rfl) fun rs => acts_forEach _ _
      (fun r _ => acts_routeField (routeField_plain (by decide)))
  refine acts_bind _ _ (acts_resolved groupRef) fun gid =>
    acts_bind _ _ (acts_readGroup gid) fun g => ?_
  split
  · trivial
  · split
    · trivial
    · rename_i valid
      refine acts_bind _ _ (acts_get rfl) fun taken => ?_
      cases taken with
      | some v => trivial
      | none =>
        have moves : Acts (Obeys (Accepted languages sources)) (moveName gid g newName) :=
          acts_bind _ _ (acts_groupField (groupField_name (of_not_not valid))) fun _ =>
            acts_bind _ _ (acts_delete trivial) fun _ => acts_bind _ _ (acts_set rfl trivial)
            fun _ => acts_armGroupTtl trivial
        exact acts_bind _ _ moves fun _ => acts_bind _ _ (routes gid) fun _ => trivial

theorem accepted_patchGroup (gid : String) (ttl : Option Nat) (sliding callout : Option Bool) :
    Acts (Obeys (Accepted languages sources)) (patchGroup gid ttl sliding callout) := by
  apply acts_bind _ _ (acts_readGroup gid)
  intro g
  refine acts_bind _ _ ?_ (fun g => acts_bind _ _ ?_ (fun g => ?_))
  · cases ttl with
    | none => trivial
    | some n =>
      apply acts_afterOk
      intro n normal
      exact acts_bind _ _ (acts_groupField (groupField_ttl (normalizeTtl_ok normal).2)) fun _ =>
        acts_bind _ _ (obeys_armGroupTtls _ _ _) fun _ => trivial
  · cases sliding with
    | none => trivial
    | some flag =>
      exact acts_bind _ _ (acts_groupField (groupField_plain (by decide))) (fun _ => trivial)
  · cases callout with
    | none => trivial
    | some flag =>
      exact acts_bind _ _ (acts_groupField (groupField_plain (by decide))) (fun _ => trivial)

/-- What the registry checks itself, whatever its callers hand it. -/
theorem accepted_commit [UlidText] (m : Mutation) :
    Acts (Obeys (Accepted (fun _ => True) (fun _ => True))) m.commit := by
  cases m with
  | createGroup params id now draw =>
    exact acts_bind _ _ (accepted_createGroup params id now draw) fun _ => trivial
  | createRoute params ids now draw =>
    exact acts_bind _ _ (accepted_createRoute trivial (fun _ _ => trivial) ids now draw)
      fun _ => trivial
  | updateRoute groupRef number patch =>
    exact acts_bind _ _ (accepted_updateRoute groupRef number (fun _ _ => trivial)
      (fun _ _ => trivial)) fun _ => trivial
  | deleteRoute groupRef number =>
    exact acts_bind _ _ (acts_getRouteBySlug groupRef number) fun _ =>
      acts_bind _ _ (acts_mono obeys_deletesRoute _ (acts_deleteRoute groupRef number))
      fun _ => trivial
  | renameGroup groupRef newName =>
    exact acts_bind _ _ (acts_readGroupByRef groupRef) fun g =>
      acts_bind _ _ (accepted_renameGroup g.id newName) fun _ => trivial
  | deleteGroup groupRef =>
    exact acts_bind _ _ (acts_readGroupByRef groupRef) fun g =>
      acts_bind _ _ (acts_mono obeys_cascadesGroup _ (acts_cascadeDeleteGroup g.id))
      fun _ => trivial

theorem accepted_code [UlidText] (call : Call) :
    Keeps (Lawful (Accepted (fun _ => True) (fun _ => True))) call.code := by
  cases call with
  | mutation m => exact keeps_settle (keeps_obeying (accepted_commit m))
  | cascadeDeleteGroup gid =>
    exact keeps_settle
      (keeps_obeying (acts_mono obeys_cascadesGroup _ (acts_cascadeDeleteGroup gid)))
  | activity a =>
    apply keeps_activity_of
    · rintro gid ttl sliding callout _
      exact keeps_obeying (accepted_patchGroup gid ttl sliding callout)
    · rintro gid rid now _
      exact keeps_obeying (acts_bind _ _ (acts_routeField (routeField_plain (by decide))) fun _ =>
        acts_bind _ _ (acts_hashIncr rfl (fun _ _ _ => routeField_plain (by decide))) fun _ =>
        acts_groupField (groupField_plain (by decide)))

end Operations

/-! Every moment of every run -/

/-- A stored name could always be a subdomain, a stored lifetime is within the bound, and the
    stored methods are some and each of them is one, half stored records and expiry included. -/
theorem records_accepted [UlidText]
    {c : Pool Store (Prog Store RegistryError Unit) (List String)}
    (reached : Reached overlapping (fun _ _ => True) c) :
    (∀ gid v, (c.shared.hashAt (.group gid)).lookup "name" = some v →
      ∃ name, v = .text name ∧ isValidLabel name = true) ∧
    (∀ gid v, (c.shared.hashAt (.group gid)).lookup "ttl_seconds" = some v →
      ∃ n : Nat, v = .int n ∧ n ≤ maxGroupTtlSeconds) ∧
    ∀ rid v, (c.shared.hashAt (.route rid)).lookup "methods" = some v →
      ∃ ms, v = .methods ms ∧ ms ≠ [] ∧ ∀ m ∈ ms, validMethod m = true := by
  have hold := overlapping_lawful accepted_code reached
  refine ⟨?_, ?_, ?_⟩
  · intro gid v stored
    exact (hold.fields (.group gid) gid "name" v rfl stored).name rfl
  · intro gid v stored
    exact (hold.fields (.group gid) gid "ttl_seconds" v rfl stored).ttlSeconds rfl
  · intro rid v stored
    obtain ⟨ms, out, listed, valid⟩ :=
      (hold.fields (.route rid) rid "methods" v rfl stored).methods rfl
    exact ⟨ms, listed, (validate_methods_ok valid).2⟩

namespace Sample

/-- A group without a chosen name, of which the name is stored and the rest is not. -/
def nameStored : List (PoolAction Call Nat) :=
  .launch (.mutation (.createGroup (group "" "ann") idA 0 draw)) :: List.replicate 3 (.resume 0)

end Sample

theorem records_accepted_generated :
    ∃ c : Pool Store (Prog Store RegistryError Unit) (List String),
      Reached overlapping (fun _ _ => True) c ∧
      (c.shared.hashAt (.group Sample.idA)).lookup "implicit" = none ∧
      (c.shared.hashAt (.group Sample.idA)).lookup "name" = some (.text "swift-otter") ∧
      ∃ name, Val.text "swift-otter" = .text name ∧ isValidLabel name = true := by
  have ran : ((exec overlapping ⟨Storage.empty .valkey, [], []⟩ Sample.nameStored).map (fun c =>
      ((c.shared.hashAt (.group Sample.idA)).lookup "implicit",
        (c.shared.hashAt (.group Sample.idA)).lookup "name"))) =
      some (none, some (.text "swift-otter")) := by
    decide +kernel
  obtain ⟨c, done, fields⟩ := Option.map_eq_some_iff.mp ran
  obtain ⟨half, stored⟩ := Prod.mk.inj fields
  have reached := reached_of_exec (m := overlapping) Sample.nameStored
    ⟨⟨.valkey, rfl, rfl⟩, rfl⟩ done
  exact ⟨c, reached, half, stored, (records_accepted reached).1 _ _ stored⟩

end WireMirage
