import Centauri.RouteTable

/-! Which route a host gets after any calls of the manager. A call of `SetRoutes` replaces
the whole table or nothing of it, so the last accepted list decides. -/
namespace Centauri

def Route.Names (route : Route K) (host : String) : Prop :=
  ∃ domain ∈ route.domains, Strings.toLower Char.toLower domain = Strings.toLower Char.toLower host

/-- The routes and the fallback a call brings, if every domain is a domain name. -/
def ProxyCall.accepted : ProxyCall A K → Option (List (Route K) × Option Nat)
  | .setRoutes _ newRoutes fallback => if RouteMap.Valid newRoutes then some (newRoutes,fallback) else none
  | .checkCertificates _ => none

def lastAccepted (calls : List (ProxyCall A K)) : List (Route K) × Option Nat :=
  (calls.filterMap ProxyCall.accepted).getLastD ([],none)

theorem lastAccepted_snoc (calls : List (ProxyCall A K)) (c : ProxyCall A K) :
    lastAccepted (calls ++ [c]) = c.accepted.getD (lastAccepted calls) := by
  unfold lastAccepted
  rw [List.filterMap_append]
  cases accepted : c.accepted with
  | none => simp [accepted]
  | some brought => simp [accepted]

namespace RouteTable

variable {K : Type}

def Holds (table : RouteTable K) (brought : List (Route K) × Option Nat) : Prop :=
  table.routes.map Route.config = brought.1.map Route.config ∧ table.fallback = brought.2

/-- Every lookup of an ASCII host is decided by the routes and the fallback: the last route
that names the host is found, or else the fallback. -/
structure Decided (toLower : String → String) (table : RouteTable K)
    (brought : List (Route K) × Option Nat) : Prop where
  holds : table.Holds brought
  last : ∀ (host : String) (i : Nat) (route : Route K), (∀ c ∈ host.toList, c.toNat < 128) →
    brought.1[i]? = some route → route.Names host →
    (∀ (j : Nat) (later : Route K), brought.1[j]? = some later → later.Names host → j ≤ i) →
    ∃ served, table.routes[i]? = some served ∧ served.config = route.config ∧
      table.view.routeFor toLower host = some served
  otherwise : ∀ host : String, (∀ c ∈ host.toList, c.toNat < 128) → (∀ route ∈ brought.1, ¬route.Names host) →
    table.view.routeFor toLower host = brought.2.bind (table.routes[·]?)

section Lookup

variable {lower : Char → Char} {table : RouteTable K} {brought : List (Route K) × Option Nat}
  {route served : Route K} {i : Nat}

/-- The routes of the table stand where those that were brought stand. -/
theorem Holds.get (holds : table.Holds brought) (i : Nat) :
    table.routes[i]?.map Route.config = brought.1[i]?.map Route.config := by
  rw [← List.getElem?_map,← List.getElem?_map,holds.1]

theorem Holds.get_some (holds : table.Holds brought)
    (at_i : brought.1[i]? = some route) :
    ∃ served, table.routes[i]? = some served ∧ served.config = route.config := by
  have same := holds.get i
  rw [at_i,Option.map_some] at same
  exact Option.map_eq_some_iff.mp same

theorem Holds.get_brought (holds : table.Holds brought)
    (at_i : table.routes[i]? = some served) :
    ∃ route, brought.1[i]? = some route ∧ served.config = route.config := by
  have same := holds.get i
  rw [at_i,Option.map_some] at same
  obtain ⟨route,found,eq⟩ := Option.map_eq_some_iff.mp same.symm
  exact ⟨route,found,eq.symm⟩

/-- Among installed routes a key of the map is a name but for letter case. -/
theorem lists_iff_names (unicode : UnicodeLower lower) (narrow : ∀ c ∈ host.toList, c.toNat < 128)
    (installed : table.Installed (Strings.toLower lower)) (member : served ∈ table.routes)
    (same : served.config = route.config) :
    RouteMap.Lists (Strings.toLower lower) served (Strings.toLower lower host) ↔ route.Names host := by
  unfold RouteMap.Lists Route.Names
  rw [Strings.toLower_ascii unicode narrow,← (Route.of_config same).1]
  constructor
  · rintro ⟨domain,listed,eq⟩
    rw [(isDomainName_lower unicode (installed.valid served member domain listed)).1] at eq
    exact ⟨domain,listed,eq⟩
  · rintro ⟨domain,listed,eq⟩
    refine ⟨domain,listed,?_⟩
    rw [(isDomainName_lower unicode (installed.valid served member domain listed)).1]
    exact eq

/-- An installed table that holds the routes looks hosts up as they say. -/
theorem Holds.decided (holds : table.Holds brought) (unicode : UnicodeLower lower)
    (installed : table.Installed (Strings.toLower lower)) :
    table.Decided (Strings.toLower lower) brought := by
  refine ⟨holds,fun host i route narrow at_i names last => ?_,fun host narrow unnamed => ?_⟩
  · obtain ⟨served,found,same⟩ := holds.get_some at_i
    refine ⟨served,found,same,?_⟩
    have owned : table.domains (Strings.toLower lower host) = some i := by
      refine (RouteMap.update_eq_some_iff installed).mpr ⟨⟨served,found,?_⟩,?_⟩
      · exact (lists_iff_names unicode narrow installed (List.mem_of_getElem? found) same).mpr names
      · intro j other at_j lists
        obtain ⟨later,brought_j,same'⟩ := holds.get_brought at_j
        exact last j later brought_j
          ((lists_iff_names unicode narrow installed (List.mem_of_getElem? at_j) same').mp lists)
    rw [Routes.routeFor,get_of_owned owned found]
  · have unlisted : table.domains (Strings.toLower lower host) = none := by
      cases owned : table.domains (Strings.toLower lower host) with
      | none => rfl
      | some i =>
        obtain ⟨⟨served,at_i,lists⟩,_⟩ := (RouteMap.update_eq_some_iff installed).mp owned
        obtain ⟨route,brought_i,same⟩ := holds.get_brought at_i
        exact absurd ((lists_iff_names unicode narrow installed (List.mem_of_getElem? at_i) same).mp lists)
          (unnamed route (List.mem_of_getElem? brought_i))
    rw [Routes.routeFor,Routes.get,← holds.2]
    simp [view,unlisted]

end Lookup

end RouteTable

namespace Proxy

variable {S A K : Type} {toLower : String → String} {provider : Option (CertificateProvider S A K)}

/-- A call that is not accepted changes certificates at most. -/
theorem call_holds (proxy : Proxy S K) (c : ProxyCall A K) (holds : proxy.table.Holds brought)
    (enabled : (proxy.call toLower provider c).2 ≠ .crashed) :
    (proxy.call toLower provider c).1.table.Holds (c.accepted.getD brought) := by
  cases c with
  | setRoutes answers newRoutes fallback =>
    rw [call] at enabled ⊢
    rcases setRoutes_cases toLower provider answers newRoutes fallback proxy with
      ⟨s,done⟩ | ⟨s,message,invalid,done⟩ | ⟨s,loaded,domains,valid,config,_,done⟩
    · rw [done] at enabled
      exact absurd rfl enabled
    · rw [done,ProxyCall.accepted,if_neg invalid]
      exact holds
    · rw [done,ProxyCall.accepted,if_pos valid]
      exact ⟨config,rfl⟩
  | checkCertificates answers =>
    rw [call] at enabled ⊢
    rcases checkCertificates_cases provider answers proxy with ⟨s,done⟩ | ⟨s,routes,config,done⟩
    · rw [done] at enabled
      exact absurd rfl enabled
    · rw [done]
      exact ⟨config.trans holds.1,holds.2⟩

/-- The table holds what was accepted last. -/
theorem run_holds (run : (machine toLower provider).Run ⟨start,.empty⟩ calls final) :
    final.table.Holds (lastAccepted calls) := by
  have start : RouteTable.empty.Holds (lastAccepted ([] : List (ProxyCall A K))) := ⟨rfl,rfl⟩
  refine run.history (fun past proxy => proxy.table.Holds (lastAccepted past)) ?_ start
  intro past proxy c holds enabled
  rw [lastAccepted_snoc]
  exact call_holds proxy c holds enabled

/-- A list with a domain that is no domain name is refused, and the table stays as it is. -/
theorem setRoutes_refused (answers : Nat → A) (fallback : Option Nat) (proxy : Proxy S K)
    (invalid : ¬RouteMap.Valid newRoutes) :
    (setRoutes toLower provider answers newRoutes fallback proxy).1.table = proxy.table ∧
      (setRoutes toLower provider answers newRoutes fallback proxy).2 ≠ .ok () := by
  rcases setRoutes_cases toLower provider answers newRoutes fallback proxy with
    ⟨s,done⟩ | ⟨s,message,_,done⟩ | ⟨_,_,_,valid,_⟩
  · rw [done]
    exact ⟨rfl,by simp⟩
  · rw [done]
    exact ⟨rfl,by simp⟩
  · exact absurd valid invalid

/-- After any calls every lookup is decided by the list that was accepted last, and a list
that is refused leaves the whole table as it is. -/
theorem run_decided {S A K : Type} {lower : Char → Char} (unicode : UnicodeLower lower)
    {provider : Option (CertificateProvider S A K)} {start : S} {calls : List (ProxyCall A K)}
    {final : Proxy S K} (run : (machine (Strings.toLower lower) provider).Run ⟨start,.empty⟩ calls final) :
    final.table.Decided (Strings.toLower lower) (lastAccepted calls) ∧
    ∀ answers newRoutes fallback, ¬RouteMap.Valid newRoutes →
      (setRoutes (Strings.toLower lower) provider answers newRoutes fallback final).1.table = final.table ∧
      (setRoutes (Strings.toLower lower) provider answers newRoutes fallback final).2 ≠ .ok () :=
  ⟨(run_holds run).decided unicode (run_installed run),
    fun answers _ fallback invalid => setRoutes_refused answers fallback final invalid⟩

end Proxy

namespace Sample

def upperRoute : Route Unit :=
  { plainRoute .notChecked with
    domains := ["Example.COM"],named := List.cons_ne_nil _ _,upstreams := [⟨"10.0.0.2:8080"⟩] }

def refusedRoute : Route Unit :=
  { plainRoute .notChecked with domains := ["-"],named := List.cons_ne_nil _ _ }

/-- A list in which the second route takes the domain of the first, then a refused one. -/
def reloads : List (ProxyCall Unit Unit) :=
  [.setRoutes (fun _ => ()) [plainRoute .notChecked,upperRoute] (some 0),
    .setRoutes (fun _ => ()) [refusedRoute] none]

theorem reloads_decided :
    let final := (Proxy.machine (Strings.toLower Char.toLower) none).after ⟨(),.empty⟩ reloads
    final.table.Decided (Strings.toLower Char.toLower)
        ([plainRoute .notChecked,upperRoute],some 0) ∧
      (Proxy.setRoutes (Strings.toLower Char.toLower) none (fun _ : Nat => ()) [refusedRoute] none
        final).1.table = final.table := by
  have allowed : (Proxy.machine (Strings.toLower Char.toLower) none).Allows ⟨(),.empty⟩ reloads := by
    decide +kernel
  obtain ⟨decided,refused⟩ := Proxy.run_decided UnicodeLower.toLower (Machine.run_of_allows allowed)
  exact ⟨decided,(refused _ [refusedRoute] none (by decide +kernel)).1⟩

end Sample

end Centauri
