import WireMirage.OAuth.Operations
import WireMirage.Store.Handles

/-!
Redirect URIs. A presented URI is compared with a registered one as it stands, and with one
on a loopback address by a normal form that keeps the address and the path.
-/
namespace WireMirage

/-- All the parts of a URL. -/
structure UrlParts extends Url where
  username : String
  password : Option String
  port : Option Nat
  query : Option String
  fragment : Option String

/-- A parser that tells every part of a URL; those that are looked at are among them. -/
class UrlParser extends Platform where
  split : String → Except String UrlParts
  looked_at : ∀ uri, parseUrl uri = (split uri).map UrlParts.toUrl

/-- Two http URLs on one loopback address with one path. -/
def SamePlace (a b : UrlParts) : Prop :=
  a.scheme = "http" ∧ b.scheme = "http" ∧ a.host = b.host ∧
    (∃ host ∈ loopbackHosts, a.host = some host) ∧ a.path = b.path

/-- What else of two URLs is the same, the port aside. -/
def SameRest (a b : UrlParts) : Prop :=
  a.username = b.username ∧ a.password = b.password ∧ a.query = b.query ∧ a.fragment = b.fragment

section Parsing
variable [UrlParser]

/-- Both parse, to URLs that stand in a relation. -/
def Split (related : UrlParts → UrlParts → Prop) (reg provided : String) : Prop :=
  ∃ a b, UrlParser.split reg = .ok a ∧ UrlParser.split provided = .ok b ∧ related a b

/-- A URI that is registered, but for the port where it is on a loopback address. -/
def Pinned (registered : List String) (provided : String) : Prop :=
  ∃ reg ∈ registered, reg = provided ∨
    Split (fun a b => SamePlace a b ∧ SameRest a b) reg provided

/-- On one loopback address with one path, but another user, query or fragment. -/
def Strays (registered : List String) (provided : String) : Prop :=
  ∃ reg ∈ registered, Split (fun a b => SamePlace a b ∧ ¬ SameRest a b) reg provided

/-! The normal form -/

theorem normalize_eq_some {uri form : String} : loopbackNormalize uri = some form ↔
    ∃ parts host, UrlParser.split uri = .ok parts ∧ parts.scheme = "http" ∧
      parts.host = some host ∧ host ∈ loopbackHosts ∧ form = "http://" ++ host ++ parts.path := by
  unfold loopbackNormalize
  rw [UrlParser.looked_at]
  cases UrlParser.split uri with
  | error e =>
    constructor
    · intro normal
      cases normal
    · rintro ⟨_, _, failed, _⟩
      cases failed
  | ok parts =>
    show (if parts.scheme ≠ "http" then none else _) = _ ↔ _
    constructor
    · intro normal
      split at normal
      · cases normal
      · rename_i http
        split at normal
        · cases normal
        · rename_i host found
          split at normal
          · rename_i loopback
            cases normal
            exact ⟨parts, host, rfl, not_not.mp http, found, loopback, rfl⟩
          · cases normal
    · rintro ⟨_, host, ⟨⟩, http, found, loopback, rfl⟩
      rw [if_neg (not_not.mpr http)]
      simp only [found]
      exact if_pos loopback

omit [UrlParser] in
/-- No loopback address is the beginning of another. -/
theorem host_of_form {host host' path path' : String} (first : host ∈ loopbackHosts)
    (second : host' ∈ loopbackHosts)
    (same : "http://" ++ host ++ path = "http://" ++ host' ++ path') :
    host = host' ∧ path = path' := by
  rw [String.append_assoc, String.append_assoc] at same
  have joined := append_left_cancel same
  have hosts : host = host' := by
    by_contra other
    have differ : loopbackHosts.all (fun x => loopbackHosts.all (fun y =>
        x = y || Differ x y)) = true := by decide
    have each := List.all_eq_true.mp (List.all_eq_true.mp differ host first) host' second
    simp only [other, decide_false, Bool.false_or] at each
    exact apart_of_differ each path path' joined
  subst hosts
  exact ⟨rfl, append_left_cancel joined⟩

/-- The normal forms of two URIs are one exactly where both stand for one place. -/
theorem normal_forms_iff (reg provided : String) :
    (match loopbackNormalize reg, loopbackNormalize provided with
      | some a, some b => (a = b : Bool)
      | _, _ => false) = true ↔ Split SamePlace reg provided := by
  constructor
  · intro forms
    split at forms
    · rename_i first second
      rw [decide_eq_true_eq] at forms
      subst forms
      obtain ⟨a, host, parsed, http, found, loopback, rfl⟩ := normalize_eq_some.mp first
      obtain ⟨b, host', parsed', http', found', loopback', same⟩ := normalize_eq_some.mp second
      obtain ⟨rfl, paths⟩ := host_of_form loopback loopback' same
      exact ⟨a, b, parsed, parsed', http, http', found.trans found'.symm,
        ⟨host, loopback, found⟩, paths⟩
    · cases forms
  · rintro ⟨a, b, parsed, parsed', http, http', hosts, ⟨host, loopback, found⟩, paths⟩
    have first := normalize_eq_some.mpr ⟨a, host, parsed, http, found, loopback, rfl⟩
    have second := normalize_eq_some.mpr
      ⟨b, host, parsed', http', hosts.symm.trans found, loopback, rfl⟩
    rw [first, second]
    simp only [paths, decide_true]

theorem matches_iff (registered : List String) (provided : String) :
    redirectUriMatches registered provided = true ↔
      ∃ reg ∈ registered, reg = provided ∨ Split SamePlace reg provided := by
  unfold redirectUriMatches
  rw [List.any_eq_true]
  constructor
  · rintro ⟨reg, member, accepted⟩
    rw [Bool.or_eq_true, decide_eq_true_eq] at accepted
    exact ⟨reg, member, accepted.imp_right (normal_forms_iff reg provided).mp⟩
  · rintro ⟨reg, member, accepted⟩
    refine ⟨reg, member, ?_⟩
    rw [Bool.or_eq_true, decide_eq_true_eq]
    exact accepted.imp_right (normal_forms_iff reg provided).mpr

/-- A URI is accepted exactly where it is pinned or strays. -/
theorem matches_iff_pinned_or_strays (registered : List String) (provided : String) :
    redirectUriMatches registered provided = true ↔
      Pinned registered provided ∨ Strays registered provided := by
  rw [matches_iff]
  constructor
  · rintro ⟨reg, member, same | ⟨a, b, parsed, parsed', place⟩⟩
    · exact .inl ⟨reg, member, .inl same⟩
    · by_cases rest : SameRest a b
      · exact .inl ⟨reg, member, .inr ⟨a, b, parsed, parsed', place, rest⟩⟩
      · exact .inr ⟨reg, member, a, b, parsed, parsed', place, rest⟩
  · rintro (⟨reg, member, same | ⟨a, b, parsed, parsed', place, _⟩⟩ |
      ⟨reg, member, a, b, parsed, parsed', place, _⟩)
    · exact ⟨reg, member, .inl same⟩
    · exact ⟨reg, member, .inr ⟨a, b, parsed, parsed', place⟩⟩
    · exact ⟨reg, member, .inr ⟨a, b, parsed, parsed', place⟩⟩

/-- Redirect URIs are pinned exactly where no presented one strays from a registered one without
    being registered itself. -/
theorem redirect_uri_pinned_iff (registered : List String) (provided : String) :
    (redirectUriMatches registered provided = true ↔ Pinned registered provided) ↔
      (Strays registered provided → Pinned registered provided) := by
  rw [matches_iff_pinned_or_strays]
  constructor
  · intro exact_ strays
    exact exact_.mp (.inr strays)
  · intro covered
    constructor
    · rintro (pinned | strays)
      · exact pinned
      · exact covered strays
    · exact .inl

end Parsing

namespace Sample

/-- The callback with a query that was not registered. -/
def elsewhere : String := "http://127.0.0.1:9/callback?next=https://evil.example"

def callbackParts : UrlParts where
  scheme := "http"
  host := some "127.0.0.1"
  path := "/callback"
  username := ""
  password := none
  port := some 7777
  query := none
  fragment := none

def splitUrl (uri : String) : Except String UrlParts :=
  if uri = redirect then .ok callbackParts
  else if uri = elsewhere then
    .ok { callbackParts with port := some 9, query := some "next=https://evil.example" }
  else .error "relative URL without a base"

@[reducible] def urlParser : UrlParser where
  toDigest := platform.toDigest
  toSigning := platform.toSigning
  hashPassword := platform.hashPassword
  verifyPassword := platform.verifyPassword
  basicText := platform.basicText
  parseUrl uri := (splitUrl uri).map UrlParts.toUrl
  split := splitUrl
  looked_at _ := rfl

end Sample

/-- A presented URI with a query of its own is accepted for a registered one without. -/
theorem redirect_uri_strays :
    @validateRedirectUriAtRegistration Sample.urlParser.toPlatform Sample.redirect = .ok () ∧
      @redirectUriMatches Sample.urlParser.toPlatform [Sample.redirect] Sample.elsewhere = true ∧
      ¬ @Pinned Sample.urlParser [Sample.redirect] Sample.elsewhere := by
  refine ⟨by decide +kernel, by decide +kernel, ?_⟩
  rintro ⟨reg, member, same | ⟨a, b, parsed, parsed', _, _, _, query, _⟩⟩
  · rw [List.mem_singleton.mp member] at same
    revert same
    decide +kernel
  · rw [List.mem_singleton.mp member] at parsed
    have first : Sample.splitUrl Sample.redirect = .ok Sample.callbackParts := rfl
    cases first.symm.trans parsed
    have second : Sample.splitUrl Sample.elsewhere = .ok { Sample.callbackParts with
        port := some 9, query := some "next=https://evil.example" } := by rfl
    cases second.symm.trans parsed'
    cases query

end WireMirage
