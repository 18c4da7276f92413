import Centauri.ConfigBlocks
import Centauri.RouteTable

/-! The file a configuration is read from: checking it, and loading it into a manager. -/
namespace Centauri

/-- What `os.Open` and reading to the end give: an error, or the contents and what ended
the reading other than the end of the file. -/
abbrev File := Except String (List UInt8 × Option String)

abbrev RouteUpdater (P K : Type) := List (Route K) → Option Nat → P → P × Outcome Unit

namespace FileSource

variable {P K : Type} (lower : Char → Char) (parseURL : String → Option (String × String))

def validate (K : Type) (file : File) : Except String Unit :=
  match file with
  | .error err => .error ("failed to open config file: " ++ err)
  | .ok (data,readErr) =>
    match (Config.parse lower parseURL data readErr : Except String (List (Route K) × Option Nat)) with
    | .error err => .error ("failed to parse config file: " ++ err)
    | .ok _ => .ok ()

def load (updateRoutes : RouteUpdater P K) (file : File) (proxy : P) : P × Outcome Unit :=
  match file with
  | .error err => (proxy,.err ("failed to open config file: " ++ err))
  | .ok (data,readErr) =>
    match (Config.parse lower parseURL data readErr : Except String (List (Route K) × Option Nat)) with
    | .error err => (proxy,.err ("failed to parse config file: " ++ err))
    | .ok (routes,fallback) =>
      match updateRoutes routes fallback proxy with
      | (proxy,.ok _) => (proxy,.ok ())
      | (proxy,.err err) => (proxy,.err ("route manager error: " ++ err))
      | (proxy,.crashed) => (proxy,.crashed)

/-- Whoever answers the manager, a file that `Validate` accepts is loaded without an error
being reported, and one that it rejects is reported and changes nothing. -/
def Agrees (K : Type) (file : File) : Prop :=
  ∀ (S A : Type) (provider : Option (CertificateProvider S A K)) (answers : Nat → A) (proxy : Proxy S K),
    let loaded := load lower parseURL (fun routes fallback proxy =>
      Proxy.setRoutes (Strings.toLower lower) provider answers routes fallback proxy) file proxy
    (validate lower parseURL K file = .ok () → ∀ message, loaded.2 ≠ .err message) ∧
    ∀ why, validate lower parseURL K file = .error why → loaded = (proxy,.err why)

def ValidDomains (K : Type) (file : File) : Prop :=
  ∀ data readErr routes fallback, file = .ok (data,readErr) →
    Config.parse lower parseURL data readErr = .ok ((routes,fallback) : List (Route K) × Option Nat) →
    RouteMap.Valid routes

end FileSource

section SetRoutes

variable {S A K : Type} {toLower : String → String} {provider : Option (CertificateProvider S A K)}
  {answers : Nat → A} {routes : List (Route K)} {proxy : Proxy S K}

/-- `SetRoutes` returns an error only for a domain that is no domain name. -/
theorem Proxy.setRoutes_err
    (failed : (Proxy.setRoutes toLower provider answers routes fallback proxy).2 = .err message) :
    ¬RouteMap.Valid routes := by
  rcases Proxy.setRoutes_cases toLower provider answers routes fallback proxy with
    ⟨s,done⟩ | ⟨s,_,invalid,_⟩ | ⟨s,loaded,domains,_,_,_,done⟩
  · rw [done] at failed
    cases failed
  · exact invalid
  · rw [done] at failed
    cases failed

/-- Without a provider nothing keeps it from looking at the domains. -/
theorem forRoutes_without_provider (answers : Nat → A) (routes : List (Route K)) (s : S) :
    ∃ loaded, forRoutes (CertificateProvider.loadCertificate none) answers routes s = (s,some loaded) := by
  induction routes generalizing answers with
  | nil => exact ⟨[],rfl⟩
  | cons route rest ih =>
    obtain ⟨loaded,done⟩ := ih fun i => answers (i + 1)
    refine ⟨route.setCertificate route.certificate .notRequired :: loaded,?_⟩
    simp [forRoutes,CertificateProvider.loadCertificate,done]

theorem Proxy.setRoutes_invalid (toLower : String → String) (answers : Nat → A)
    (invalid : ¬RouteMap.Valid routes) (fallback : Option Nat) (proxy : Proxy S K) :
    ∃ message, (Proxy.setRoutes toLower none answers routes fallback proxy).2 = .err message := by
  obtain ⟨loaded,loads⟩ := forRoutes_without_provider answers routes proxy.state
  rcases Proxy.setRoutes_cases toLower (none : Option (CertificateProvider S A K)) answers routes fallback proxy with
    ⟨s,done⟩ | ⟨s,message,_,done⟩ | ⟨_,_,_,valid,_⟩
  · have crashed := congrArg Prod.snd done
    unfold setRoutes at crashed
    rw [loads] at crashed
    dsimp only at crashed
    split at crashed <;> cases crashed
  · exact ⟨message,by rw [done]⟩
  · exact absurd valid invalid

end SetRoutes

namespace FileSource

/-- The two paths agree on exactly the files that cannot be parsed or have nothing but
domain names in their routes. -/
theorem agrees_iff {K : Type} (lower : Char → Char) (parseURL : String → Option (String × String))
    (file : File) : Agrees lower parseURL K file ↔ ValidDomains lower parseURL K file := by
  constructor
  · rintro agrees data readErr routes fallback rfl parsed
    by_contra invalid
    obtain ⟨message,failed⟩ := Proxy.setRoutes_invalid (Strings.toLower lower) (fun _ => ()) invalid fallback
      ⟨(),.empty⟩
    have accepted := (agrees Unit Unit none (fun _ => ()) ⟨(),.empty⟩).1
    simp only [validate,load,parsed,forall_const] at accepted
    split at accepted
    next done =>
      rw [done] at failed
      cases failed
    next err done => exact accepted _ rfl
    next done =>
      rw [done] at failed
      cases failed
  · intro valid S A provider answers proxy
    cases file with
    | error err => simp [validate,load]
    | ok contents =>
      obtain ⟨data,readErr⟩ := contents
      cases parsed : (Config.parse lower parseURL data readErr : Except String (List (Route K) × Option Nat)) with
      | error err => simp [validate,load,parsed]
      | ok result =>
        obtain ⟨routes,fallback⟩ := result
        have checked := valid data readErr routes fallback rfl parsed
        simp only [validate,load,parsed,forall_const]
        refine ⟨fun message => ?_,by simp⟩
        split
        next => simp
        next failed => exact absurd checked (Proxy.setRoutes_err (congrArg Prod.snd failed))
        next => simp

end FileSource

namespace Sample

def misspelt : List UInt8 := bytes "route a$b\nupstream h"

/-- The file is valid by `Validate`, and loading it is an error. -/
theorem misspelt_refused :
    FileSource.validate Char.toLower (fun _ => none) Unit (.ok (misspelt,none)) = .ok () ∧
    (FileSource.load Char.toLower (fun _ => none) (fun routes fallback proxy =>
      Proxy.setRoutes asciiLower (none : Option (CertificateProvider Unit Unit Unit)) (fun _ => ()) routes
        fallback proxy) (.ok (misspelt,none)) ⟨(),.empty⟩).2 =
      .err "route manager error: invalid domain name: a$b" := by
  decide +kernel

end Sample

end Centauri
