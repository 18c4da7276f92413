import Centauri.CertificateManager

/-! When an ACME server wants a certificate to be renewed: the window it suggests, the time that
`LegoSupplier.UpdateRenewalInfo` picks in it, and when the certificate is due in the end.
Durations are 64-bit counts of nanoseconds; times are as everywhere here. -/
namespace Centauri

def second : Int := 1000000000

def minDuration : Int := -9223372036854775808
def maxDuration : Int := 9223372036854775807

/-- `time.Time.Sub`, which saturates. -/
def Time.sub (t u : Int) : Int := max minDuration (min maxDuration (t - u))

abbrev Draw := (n : Int) → 0 < n → { k : Int // 0 ≤ k ∧ k < n }

/-- `math/rand/v2.Int64N`; `none` is its panic. -/
def int64N (draw : Draw) (n : Int) : Option Int :=
  if positive : 0 < n then some (draw n positive).val else none

structure Window where
  start : Int
  stop : Int
  deriving DecidableEq, Repr

structure RenewalResponse where
  suggestedWindow : Window
  retryAfter : Int
  explanationURL : String
  deriving DecidableEq, Repr

/-- How `GetRenewalInfo` ends. `api.ErrNoARI` is told apart from the other errors. -/
inductive RenewalAnswer where
  | response (response : RenewalResponse)
  | noARI
  | failed (message : String)
  deriving DecidableEq, Repr

/-- `C` is a parsed certificate. -/
structure LegoSupplier (C : Type) where
  parsePEMCertificate : String → Except String C
  getRenewalInfo : C → RenewalAnswer

namespace LegoSupplier

variable {C : Type}

def renewalTime (draw : Draw) (window : Window) : Option Int :=
  let windowDuration := Time.sub window.stop window.start
  if windowDuration ≥ second then (int64N draw windowDuration).map (window.start + ·)
  else some window.start

/-- The fields that are written to the certificate. -/
def updateRenewalInfo (s : LegoSupplier C) (draw : Draw) (now : Int) (cert : Details) : Outcome RenewalInfo :=
  match s.parsePEMCertificate cert.certificate with
  | .error message => .err ("unable to parse certificate: " ++ message)
  | .ok x509Cert =>
    match s.getRenewalInfo x509Cert with
    | .noARI => .ok ⟨cert.notAfter,0,"ARI not supported"⟩
    | .failed message => .err message
    | .response response =>
      match renewalTime draw response.suggestedWindow with
      | none => .crashed
      | some time => .ok ⟨now + response.retryAfter,time,response.explanationURL⟩

/-- Saturation does not change which windows last a second, and makes none longer. -/
theorem sub_bounds (t u : Int) : (second ≤ Time.sub t u ↔ second ≤ t - u) ∧
    (second ≤ t - u → Time.sub t u ≤ t - u) := by
  simp only [Time.sub,second,minDuration,maxDuration]
  omega

/-- A time is always found, in the window or at its start. -/
theorem renewalTime_within (draw : Draw) (window : Window) : ∃ time, renewalTime draw window = some time ∧
    (window.stop - window.start < second → time = window.start) ∧
    (second ≤ window.stop - window.start → window.start ≤ time ∧ time < window.stop) := by
  obtain ⟨same,least⟩ := sub_bounds window.stop window.start
  unfold renewalTime
  dsimp only
  by_cases long : second ≤ window.stop - window.start
  · have positive : 0 < Time.sub window.stop window.start := by
      have reached := same.mpr long
      simp only [second] at reached
      omega
    obtain ⟨offset,drawn⟩ : ∃ offset, draw _ positive = offset := ⟨_,rfl⟩
    refine ⟨window.start + offset.val,?_,?_,?_⟩
    · rw [if_pos (same.mpr long),int64N,dif_pos positive,drawn]
      rfl
    · omega
    · intro _
      have bound := least long
      have below := offset.property
      omega
  · refine ⟨window.start,?_,fun _ => rfl,fun h => absurd h long⟩
    rw [if_neg (mt same.mp long)]

theorem updateRenewalInfo_response {s : LegoSupplier C} {cert : Details}
    (parsed : s.parsePEMCertificate cert.certificate = .ok x509Cert)
    (answered : s.getRenewalInfo x509Cert = .response response) (draw : Draw) (now : Int) :
    ∃ time, s.updateRenewalInfo draw now cert =
        .ok ⟨now + response.retryAfter,time,response.explanationURL⟩ ∧
      (response.suggestedWindow.stop - response.suggestedWindow.start < second →
        time = response.suggestedWindow.start) ∧
      (second ≤ response.suggestedWindow.stop - response.suggestedWindow.start →
        response.suggestedWindow.start ≤ time ∧ time < response.suggestedWindow.stop) := by
  obtain ⟨time,found,within⟩ := renewalTime_within draw response.suggestedWindow
  refine ⟨time,?_,within⟩
  simp only [updateRenewalInfo,parsed,answered,found]

theorem updateRenewalInfo_not_crashed (s : LegoSupplier C) (draw : Draw) (now : Int) (cert : Details) :
    s.updateRenewalInfo draw now cert ≠ .crashed := by
  cases parsed : s.parsePEMCertificate cert.certificate with
  | error message => simp [updateRenewalInfo,parsed]
  | ok x509Cert =>
    cases answered : s.getRenewalInfo x509Cert with
    | noARI => simp [updateRenewalInfo,parsed,answered]
    | failed message => simp [updateRenewalInfo,parsed,answered]
    | response response =>
      obtain ⟨time,written,_⟩ := updateRenewalInfo_response parsed answered draw now
      rw [written]
      simp

end LegoSupplier

structure Refresh (C ω : Type) where
  supplier : LegoSupplier C
  draw : Draw
  now : Int
  saving : Option ω

namespace Refresh

variable {C σ ι ω : Type} (store : Store σ ι ω)

/-- The manager asks the supplier and notes what it says; `none` takes the process down. -/
def step (cert : Ref) (w : World σ) (r : Refresh C ω) : Option (World σ) :=
  match r.supplier.updateRenewalInfo r.draw r.now (w.heap cert) with
  | .crashed => none
  | .err message => some (Manager.updateRenewalInfo store r.now (.error message) r.saving cert w)
  | .ok info => some (Manager.updateRenewalInfo store r.now (.ok info) r.saving cert w)

def run (cert : Ref) (refreshes : List (Refresh C ω)) (w : World σ) : Option (World σ) :=
  refreshes.foldlM (step store cert) w

def Suggests (r : Refresh C ω) (window : Window) (certificate : String) : Prop :=
  ∃ x509Cert response, r.supplier.parsePEMCertificate certificate = .ok x509Cert ∧
    r.supplier.getRenewalInfo x509Cert = .response response ∧ response.suggestedWindow = window

def InWindow (window : Window) (d : Details) : Prop :=
  window.start ≤ d.ariRenewalTime ∧ d.ariRenewalTime < window.stop

theorem heap_updateRenewalInfo (now : Int) (info : RenewalInfo) (saving : Option ω) (cert : Ref) (w : World σ) :
    (Manager.updateRenewalInfo store now (.ok info) saving cert w).heap cert = (w.heap cert).withRenewalInfo info := by
  cases saving with
  | none => simp [Manager.updateRenewalInfo,World.call,World.modify]
  | some how => simp [Manager.updateRenewalInfo,Manager.save,World.call,World.modify]

/-- Whatever the time was before. -/
theorem step_inWindow {r : Refresh C ω} {w : World σ} (suggests : r.Suggests window (w.heap cert).certificate)
    (long : second ≤ window.stop - window.start) :
    ∃ w', step store cert w r = some w' ∧ (w'.heap cert).certificate = (w.heap cert).certificate ∧
      InWindow window (w'.heap cert) := by
  obtain ⟨x509Cert,response,parsed,answered,rfl⟩ := suggests
  obtain ⟨time,written,_,within⟩ := LegoSupplier.updateRenewalInfo_response parsed answered r.draw r.now
  simp only [step,written]
  refine ⟨_,rfl,?_,?_⟩
  · rw [heap_updateRenewalInfo]
    rfl
  · rw [InWindow,heap_updateRenewalInfo]
    exact within long

theorem run_inWindow {refreshes : List (Refresh C ω)} {w : World σ} (any : refreshes ≠ [])
    (suggest : ∀ r ∈ refreshes, r.Suggests window (w.heap cert).certificate)
    (long : second ≤ window.stop - window.start) :
    ∃ w', run store cert refreshes w = some w' ∧ InWindow window (w'.heap cert) := by
  induction refreshes generalizing w with
  | nil => exact absurd rfl any
  | cons r rest ih =>
    obtain ⟨next,stepped,same,within⟩ := step_inWindow store (suggest r List.mem_cons_self) long
    by_cases last : rest = []
    · subst last
      exact ⟨next,by simp [run,stepped],within⟩
    · have later : ∀ r' ∈ rest, r'.Suggests window (next.heap cert).certificate := by
        rw [same]
        exact fun r' member => suggest r' (List.mem_cons_of_mem _ member)
      obtain ⟨final,ran,within'⟩ := ih last later
      exact ⟨final,by simpa [run,stepped] using ran,within'⟩

end Refresh

/-- A time in a window after the zero time decides alone, whatever validity is asked for. -/
theorem Refresh.InWindow.shouldRenew {d : Details} (positive : 0 < window.start) (within : InWindow window d)
    (now minimumValidity : Int) :
    (now ≤ window.start → d.shouldRenew now minimumValidity = false) ∧
    (window.stop ≤ now → d.shouldRenew now minimumValidity = true) := by
  obtain ⟨after,before⟩ := within
  have known : d.ariRenewalTime ≠ 0 := by omega
  simp only [Details.shouldRenew,known,if_false,decide_eq_true_eq,decide_eq_false_iff_not]
  omega

/-- Every window is survived and obeyed, and refreshes that agree on a window of some length leave
the certificate due nowhere but in it. -/
theorem LegoSupplier.renewal_in_window {C σ ι ω : Type} (store : Store σ ι ω) :
    (∀ (s : LegoSupplier C) (draw : Draw) (now : Int) (cert : Details),
      s.updateRenewalInfo draw now cert ≠ .crashed ∧
      ∀ x509Cert response, s.parsePEMCertificate cert.certificate = .ok x509Cert →
        s.getRenewalInfo x509Cert = .response response →
        ∃ info, s.updateRenewalInfo draw now cert = .ok info ∧
          (response.suggestedWindow.stop - response.suggestedWindow.start < second →
            info.ariRenewalTime = response.suggestedWindow.start) ∧
          (second ≤ response.suggestedWindow.stop - response.suggestedWindow.start →
            response.suggestedWindow.start ≤ info.ariRenewalTime ∧
              info.ariRenewalTime < response.suggestedWindow.stop)) ∧
    ∀ (window : Window) (refreshes : List (Refresh C ω)) (cert : Ref) (w : World σ),
      0 < window.start → second ≤ window.stop - window.start → refreshes ≠ [] →
      (∀ r ∈ refreshes, r.Suggests window (w.heap cert).certificate) →
      ∃ w', Refresh.run store cert refreshes w = some w' ∧ ∀ now minimumValidity,
        (now ≤ window.start → (w'.heap cert).shouldRenew now minimumValidity = false) ∧
        (window.stop ≤ now → (w'.heap cert).shouldRenew now minimumValidity = true) := by
  constructor
  · intro s draw now cert
    refine ⟨s.updateRenewalInfo_not_crashed draw now cert,fun x509Cert response parsed answered => ?_⟩
    obtain ⟨time,written,within⟩ := updateRenewalInfo_response parsed answered draw now
    exact ⟨_,written,within⟩
  · intro window refreshes cert w positive long any suggest
    obtain ⟨final,ran,within⟩ := Refresh.run_inWindow store any suggest long
    exact ⟨final,ran,within.shouldRenew positive⟩

namespace Sample

/-- A server that suggests the last hour before the certificate expires. -/
def lastHour : Window := ⟨leafNotAfter - hour,leafNotAfter⟩

def lastHourRefresh : Refresh Unit Unit where
  supplier := ⟨fun _ => .ok (),fun _ => .response ⟨lastHour,6 * hour,""⟩⟩
  draw n positive := ⟨n - 1,by omega⟩
  now := leafNotAfter - 48 * hour
  saving := none

/-- Two refreshes that draw the last moment of the window. -/
theorem lastHour_obeyed :
    let store : Store Unit Unit Unit := ⟨fun _ _ _ _ _ _ => none,fun _ _ _ _ contents => (contents,none)⟩
    let w : World Unit := ⟨fun _ => stored 0 0,1,(),[]⟩
    ∃ w', Refresh.run store 0 [lastHourRefresh,lastHourRefresh] w = some w' ∧ ∀ now minimumValidity,
      (now ≤ lastHour.start → (w'.heap 0).shouldRenew now minimumValidity = false) ∧
      (lastHour.stop ≤ now → (w'.heap 0).shouldRenew now minimumValidity = true) := by
  intro store w
  refine (LegoSupplier.renewal_in_window store).2 lastHour [lastHourRefresh,lastHourRefresh] 0 w (by decide) (by decide)
    (by simp) ?_
  simp only [List.mem_cons,List.not_mem_nil,or_false,or_self,forall_eq]
  exact ⟨(),⟨lastHour,6 * hour,""⟩,rfl,rfl,rfl⟩

end Sample

end Centauri
