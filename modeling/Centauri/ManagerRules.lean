import Centauri.CertificatePaths
import Centauri.ProviderIsolation

/-! A proof rule for `GetCertificate` over any store. It asks for an invariant of the
world, for what is known of the certificate that a lookup found, and for what makes a
certificate fit to be handed out, and leaves the branches of the call behind. -/
namespace Centauri

def Call.orders : Call → Bool
  | .getCertificate _ _ _ => true
  | _ => false

namespace Manager

variable {σ ι ω K : Type}

def issuing (store : Store σ ι ω) (answers : Answers ι ω) (name : String) (d : Details) (w : World σ) :
    World σ :=
  updateRenewalInfo store answers.now answers.issuedRenewalInfo none w.fresh
    ((w.alloc d).modify w.fresh (Details.withProvider name))

/-- What a call for the names, resolved to the supplier `name`, has to keep from its lookup on.
`Inv` is the invariant and `Ordered` what holds beside once a certificate has been ordered; `Hand`
holds of a certificate found in the store, `Fit` of one to hand out. -/
structure Steps (crypto : Crypto K) (m : Manager) (store : Store σ ι ω) (answers : Answers ι ω)
    (supplier : Supplier) (name subject : String) (altNames : List String)
    (Inv Ordered : World σ → Prop) (Hand Fit : World σ → Ref → Prop) : Prop where
  called : Inv w → c.orders = false → Inv (w.call c)
  hand_called : Hand w r → c.orders = false → Hand (w.call c) r
  fit_called : Fit w r → c.orders = false → Fit (w.call c) r
  refreshed : Inv w → Hand w r → answers.renewalInfo = .ok info →
    Inv (save store answers.now answers.saveRenewalInfo r (w.modify r (Details.withRenewalInfo info))).1 ∧
    Hand (save store answers.now answers.saveRenewalInfo r (w.modify r (Details.withRenewalInfo info))).1 r
  /-- A certificate is handed out as it was found if its staple will do. -/
  settled : Inv w → Hand w r →
    (w.heap r).shouldRenew answers.now supplier.minCertificateValidity = false →
    ((w.heap r).requiresStaple crypto = some true →
      (w.heap r).hasStapleFor answers.now supplier.minStapleValidity = true) → Fit w r
  due : Inv w → Hand w r →
    (w.heap r).shouldRenew answers.now supplier.minCertificateValidity = true →
    Ordered (w.call (.getCertificate subject altNames m.shouldStaple))
  refused : Ordered w → answers.issued = .error message → Inv w
  issued : Ordered w → answers.issued = .ok d →
    Inv (save store answers.now answers.saveIssued w.fresh (issuing store answers name d w)).1 ∧
    Fit (save store answers.now answers.saveIssued w.fresh (issuing store answers name d w)).1 w.fresh
  stapled : Inv w → Hand w r →
    (w.heap r).shouldRenew answers.now supplier.minCertificateValidity = false → answers.staple = .ok s →
    Inv (save store answers.now answers.saveStaple r (w.modify r (Details.withStaple s))).1 ∧
    Fit (save store answers.now answers.saveStaple r (w.modify r (Details.withStaple s))).1 r

/-- The same for a call from any world with the invariant. -/
structure Rule (crypto : Crypto K) (m : Manager) (store : Store σ ι ω) (answers : Answers ι ω)
    (supplier : Supplier) (name subject : String) (altNames : List String)
    (Inv Ordered : World σ → Prop) (Hand Fit : World σ → Ref → Prop) : Prop
    extends Steps crypto m store answers supplier name subject altNames Inv Ordered Hand Fit where
  found : Inv w → lookup store answers.lookup name subject altNames w = (w',some r) → Inv w' ∧ Hand w' r
  /-- A certificate is ordered when none is found, or the one that was is due. -/
  absent : Inv w → store.getCertificate answers.lookup name subject altNames w.heap w.store = none →
    Ordered (w.call (.getCertificate subject altNames m.shouldStaple))

structure Follows (crypto : Crypto K) (Inv : World σ → Prop) (Fit : World σ → Ref → Prop)
    (result : World σ × Outcome (TlsCertificate K)) : Prop where
  inv : Inv result.1
  returned : ∀ key, result.2 = .ok key → ∃ r, Fit result.1 r ∧ (result.1.heap r).keyPair crypto = .ok key

section Rule

variable {m : Manager} {store : Store σ ι ω} {answers : Answers ι ω} {supplier : Supplier}
  {name subject : String} {altNames : List String} {Inv Ordered : World σ → Prop}
  {Hand Fit : World σ → Ref → Prop} {w : World σ} {r : Ref}

theorem lookup_none (looked : lookup store how name subject altNames w = (w',none)) :
    w' = w ∧ store.getCertificate how name subject altNames w.heap w.store = none := by
  unfold lookup World.take at looked
  split at looked <;> cases looked
  next absent => exact ⟨rfl,absent⟩

/-- Whether or not the save reports an error, what counts is the world it leaves. -/
theorem deliver_follows (crypto : Crypto K) {how : ω} (label : String)
    (saved : Inv (save store now how r w).1 ∧ Fit (save store now how r w).1 r) :
    Follows crypto Inv Fit (deliver crypto store now how label r w) := by
  unfold deliver
  split
  · next done =>
    rw [done] at saved
    exact ⟨saved.1,nofun⟩
  · next done =>
    rw [done] at saved
    exact ⟨saved.1,fun key returned => ⟨r,saved.2,ofExcept_ok returned⟩⟩

namespace Steps

variable {crypto : Crypto K}
  (steps : Steps crypto m store answers supplier name subject altNames Inv Ordered Hand Fit)

include steps

theorem obtain (ordered : Ordered (w.call (.getCertificate subject altNames m.shouldStaple))) :
    Follows crypto Inv Fit (m.obtain crypto store answers name subject altNames w) := by
  unfold Manager.obtain
  dsimp only
  split
  · next refused => exact ⟨steps.refused ordered refused,nofun⟩
  · next d issued =>
    exact deliver_follows crypto subject (steps.issued ordered issued)

theorem staple (inv : Inv w) (hand : Hand w r)
    (notDue : (w.heap r).shouldRenew answers.now supplier.minCertificateValidity = false) :
    Follows crypto Inv Fit (Manager.staple crypto store answers r w) := by
  have asked : Inv (w.call (.updateStaple r)) := steps.called inv rfl
  unfold Manager.staple
  dsimp only
  split
  · exact ⟨asked,nofun⟩
  · next s stapled =>
    exact deliver_follows crypto _ (steps.stapled asked (steps.hand_called hand rfl) notDue stapled)

theorem refresh (inv : Inv w) (hand : Hand w r) :
    Inv (Manager.refresh store answers r w) ∧ Hand (Manager.refresh store answers r w) r := by
  unfold Manager.refresh updateRenewalInfo
  split
  · have asked : Inv (w.call (.updateRenewalInfo r)) := steps.called inv rfl
    cases answered : answers.renewalInfo with
    | error message => exact ⟨asked,steps.hand_called hand rfl⟩
    | ok info => exact steps.refreshed asked (steps.hand_called hand rfl) answered
  · exact ⟨inv,hand⟩

theorem proceed (inv : Inv w) (hand : Hand w r) :
    Follows crypto Inv Fit (m.proceed crypto store answers supplier name subject altNames r w) := by
  unfold Manager.proceed
  split
  · next due => exact steps.obtain (steps.due inv hand due)
  · next notDue =>
    have notDue : (w.heap r).shouldRenew answers.now supplier.minCertificateValidity = false :=
      Bool.not_eq_true _ ▸ notDue
    split
    · exact ⟨inv,nofun⟩
    · next required asked =>
      split
      · exact steps.staple inv hand notDue
      · next enough =>
        have fit := steps.settled inv hand notDue fun must => by
          rw [asked] at must
          cases must
          simpa using enough
        exact ⟨inv,fun key returned => ⟨r,fit,ofExcept_ok returned⟩⟩

theorem getLocked
    (absent : store.getCertificate answers.lookup name subject altNames w.heap w.store = none →
      Ordered (w.call (.getCertificate subject altNames m.shouldStaple)))
    (found : ∀ w' r, lookup store answers.lookup name subject altNames w = (w',some r) → Inv w' ∧ Hand w' r) :
    Follows crypto Inv Fit (m.getLocked crypto store answers supplier name subject altNames w) := by
  unfold Manager.getLocked
  split
  · next looked =>
    obtain ⟨rfl,nothing⟩ := lookup_none looked
    exact steps.obtain (absent nothing)
  · next looked =>
    obtain ⟨inv,hand⟩ := found _ _ looked
    obtain ⟨inv,hand⟩ := steps.refresh inv hand
    exact steps.proceed inv hand

theorem getCertificate (resolved : m.supplier preferredSupplier = .ok (supplier,name))
    (locked : Follows crypto Inv Fit (m.getLocked crypto store answers supplier name subject altNames
      (w.call (.lockCertificate subject altNames)))) :
    Follows crypto Inv Fit
      (m.getCertificate crypto store answers preferredSupplier subject altNames w) := by
  unfold Manager.getCertificate
  rw [resolved]
  refine ⟨steps.called locked.inv rfl,fun key returned => ?_⟩
  obtain ⟨r,fit,parsed⟩ := locked.returned key returned
  exact ⟨r,steps.fit_called fit rfl,parsed⟩

end Steps

theorem Rule.getCertificate {crypto : Crypto K}
    (rule : Rule crypto m store answers supplier name subject altNames Inv Ordered Hand Fit)
    (resolved : m.supplier preferredSupplier = .ok (supplier,name)) (inv : Inv w) :
    Follows crypto Inv Fit
      (m.getCertificate crypto store answers preferredSupplier subject altNames w) := by
  have locked : Inv (w.call (.lockCertificate subject altNames)) := rule.called inv rfl
  exact rule.toSteps.getCertificate resolved
    (rule.toSteps.getLocked (rule.absent locked) fun _ _ => rule.found locked)

end Rule

end Manager

end Centauri
