import Centauri.RenewalOrders
import Centauri.NullEntries

/-! The file store over restarts of the process. Its pointers do not survive one and its
file does. What a call returns and leaves in the file is first shown to depend on the
stored values alone, and then that loading the file brings these values back. -/
namespace Centauri

namespace JsonStore

variable {ρ : Type} (json : Json)

def contents (deref : ρ → Details) (j : JsonStore ρ) : JsonStore Details :=
  ⟨j.certificates.map deref,j.file⟩

theorem save_contents (deref : ρ → Details) (now : Int) (write : WriteFile) (j : JsonStore ρ) :
    save json id now write (j.contents deref) =
      ((save json deref now write j).1.contents deref,(save json deref now write j).2) := by
  have pruned : pruneCertificates id now (j.certificates.map deref) =
      (pruneCertificates deref now j.certificates).map deref := List.filter_map
  simp only [save,contents,pruned,List.map_id]
  cases json.marshalList ((pruneCertificates deref now j.certificates).map deref) with
  | error message => rfl
  | ok text => cases write <;> rfl

theorem saveCertificate_replace (deref : ρ → Details) (now : Int) (write : WriteFile) (r : ρ) (j : JsonStore ρ) :
    j.saveCertificate json deref now write r =
      save json deref now write ⟨Expiring.replace (keyOf deref) r j.certificates,j.file⟩ := by
  have same : (fun q => (deref q).isFor (deref r).subject (deref r).altNames &&
      (deref q).provider == (deref r).provider) = fun q => decide (keyOf deref q = keyOf deref r) := by
    funext q
    rw [Bool.eq_iff_iff]
    simp only [Bool.and_eq_true,beq_iff_eq,decide_eq_true_eq]
    exact and_comm.trans (Details.key_eq_key_iff (deref q) (deref r)).symm
  rw [saveCertificate,removeCertificate,same]
  rfl

/-- Rewriting an entry in place and saving it is saving its new value. -/
theorem saveCertificate_contents {before after : ρ → Details} {j : JsonStore ρ}
    (distinct : Expiring.Distinct (keyOf before) j.certificates)
    (keys : ∀ q ∈ j.certificates, (after q).key = (before q).key)
    (others : ∀ q ∈ j.certificates, q ≠ r → after q = before q) (now : Int) (write : WriteFile) :
    (j.contents before).saveCertificate json id now write (after r) =
      ((j.saveCertificate json after now write r).1.contents after,(j.saveCertificate json after now write r).2) := by
  have entries : contents after ⟨Expiring.replace (keyOf after) r j.certificates,j.file⟩ =
      ⟨Expiring.replace (keyOf id) (after r) (j.contents before).certificates,j.file⟩ :=
    congrArg (JsonStore.mk · j.file) (Expiring.map_replace distinct keys others)
  rw [saveCertificate_replace,saveCertificate_replace,← save_contents,entries]
  rfl

end JsonStore

def Call.unaddressed : Call → Call
  | .updateStaple _ => .updateStaple 0
  | .updateRenewalInfo _ => .updateRenewalInfo 0
  | c => c

/-- The state of the manager without pointers: stored values, and the calls it made. -/
structure Ledger where
  store : JsonStore Details
  calls : List Call

def World.ledger (w : World (JsonStore Ref)) : Ledger :=
  ⟨w.store.contents w.heap,w.calls.map Call.unaddressed⟩

def seen (result : World (JsonStore Ref) × α) : Ledger × α := (result.1.ledger,result.2)

/-! The manager as it would be if certificates were values, passed from one step to the next. -/
namespace Ledger

variable {K : Type} (json : Json) (crypto : Crypto K)

def call (c : Call) (l : Ledger) : Ledger := { l with calls := l.calls ++ [c.unaddressed] }

def save (now : Int) (how : WriteFile) (d : Details) (l : Ledger) : Ledger × Option String :=
  ({ l with store := (l.store.saveCertificate json id now how d).1 },(l.store.saveCertificate json id now how d).2)

def deliver (now : Int) (how : WriteFile) (subject : String) (d : Details) (l : Ledger) :
    Ledger × Outcome (TlsCertificate K) :=
  match save json now how d l with
  | (l,some message) => (l,.err ("failed to save certificate for " ++ subject ++ ": " ++ message))
  | (l,none) => (l,.ofExcept (d.keyPair crypto))

def obtain (m : Manager) (answers : Answers Unit WriteFile) (supplierName subject : String)
    (altNames : List String) (l : Ledger) : Ledger × Outcome (TlsCertificate K) :=
  let l := l.call (.getCertificate subject altNames m.shouldStaple)
  match answers.issued with
  | .error message => (l,.err ("failed to obtain certificate for " ++ subject ++ ": " ++ message))
  | .ok details =>
    deliver json crypto answers.now answers.saveIssued subject
      (details.issuedAs supplierName answers.issuedRenewalInfo) (l.call (.updateRenewalInfo 0))

def staple (answers : Answers Unit WriteFile) (d : Details) (l : Ledger) :
    Ledger × Outcome (TlsCertificate K) :=
  let l := l.call (.updateStaple 0)
  match answers.staple with
  | .error message => (l,.err ("failed to obtain OCSP staple for " ++ d.subject ++ ": " ++ message))
  | .ok s => deliver json crypto answers.now answers.saveStaple d.subject (d.withStaple s) l

/-- The certificate goes on with its new ARI data, whether or not that could be saved. -/
def refresh (answers : Answers Unit WriteFile) (d : Details) (l : Ledger) : Details × Ledger :=
  if d.ariNextUpdate < answers.now then
    match answers.renewalInfo with
    | .error _ => (d,l.call (.updateRenewalInfo 0))
    | .ok info => (d.withRenewalInfo info,
        (save json answers.now answers.saveRenewalInfo (d.withRenewalInfo info) (l.call (.updateRenewalInfo 0))).1)
  else (d,l)

def proceed (m : Manager) (answers : Answers Unit WriteFile) (supplier : Supplier)
    (supplierName subject : String) (altNames : List String) (d : Details) (l : Ledger) :
    Ledger × Outcome (TlsCertificate K) :=
  if d.shouldRenew answers.now supplier.minCertificateValidity then
    obtain json crypto m answers supplierName subject altNames l
  else
    match d.requiresStaple crypto with
    | none => (l,.crashed)
    | some required =>
      if required && !d.hasStapleFor answers.now supplier.minStapleValidity then
        staple json crypto answers d l
      else (l,.ofExcept (d.keyPair crypto))

def getLocked (m : Manager) (answers : Answers Unit WriteFile) (supplier : Supplier)
    (supplierName subject : String) (altNames : List String) (l : Ledger) :
    Ledger × Outcome (TlsCertificate K) :=
  match l.store.getCertificate id supplierName subject altNames with
  | none => obtain json crypto m answers supplierName subject altNames l
  | some d =>
    proceed json crypto m answers supplier supplierName subject altNames
      (refresh json answers d l).1 (refresh json answers d l).2

def getCertificate (m : Manager) (answers : Answers Unit WriteFile) (preferredSupplier subject : String)
    (altNames : List String) (l : Ledger) : Ledger × Outcome (TlsCertificate K) :=
  match m.supplier preferredSupplier with
  | .error message => (l,.err message)
  | .ok (supplier,supplierName) =>
    let locked := getLocked json crypto m answers supplier supplierName subject altNames
      (l.call (.lockCertificate subject altNames))
    (locked.1.call (.unlockCertificate subject altNames),locked.2)

def getExistingCertificate (m : Manager) (now : Int) (preferredSupplier subject : String)
    (altNames : List String) (l : Ledger) : Existing K :=
  match m.supplier preferredSupplier with
  | .error message => .missing false message
  | .ok (supplier,supplierName) =>
    match l.store.getCertificate id supplierName subject altNames with
    | none => .missing true "no stored certificate found"
    | some d => Manager.judge crypto now supplier d

def apply (m : Manager) (l : Ledger) : ManagerCall → Ledger × Outcome (TlsCertificate K)
  | .getCertificate answers preferredSupplier subject altNames =>
    l.getCertificate json crypto m answers preferredSupplier subject altNames
  | .getExistingCertificate now preferredSupplier subject altNames =>
    (l,(l.getExistingCertificate crypto m now preferredSupplier subject altNames).outcome)

end Ledger

/-- `after` has a new value for `r`, and otherwise agrees with `before` on what is stored. -/
structure Exchanged (before after : World (JsonStore Ref)) (r : Ref) : Prop where
  store : after.store = before.store
  key : r ∈ before.store.certificates → (after.heap r).key = (before.heap r).key
  others : ∀ q ∈ before.store.certificates, q ≠ r → after.heap q = before.heap q

section Refinement

variable {K : Type} {json : Json} {crypto : Crypto K} {m : Manager} {answers : Answers Unit WriteFile}
  {w before after : World (JsonStore Ref)} {r : Ref}

@[simp] theorem World.ledger_call (c : Call) (w : World (JsonStore Ref)) :
    (w.call c).ledger = w.ledger.call c := by
  simp [World.ledger,World.call,Ledger.call]

theorem Exchanged.modify (f : Details → Details) (key : ∀ d, (f d).key = d.key) (r : Ref)
    (w : World (JsonStore Ref)) : Exchanged w (w.modify r f) r where
  store := rfl
  key _ := congrFun (keyOf_modify f key r w) r
  others _ _ ne := Function.update_of_ne ne ..

theorem save_ledger (sound : Sound before) (exchanged : Exchanged before after r) (now : Int) (how : WriteFile) :
    Ledger.save json now how (after.heap r) ⟨before.ledger.store,after.ledger.calls⟩ =
      seen (Manager.save (JsonStore.asStore json) now how r after) := by
  have keys : ∀ q ∈ before.store.certificates, (after.heap q).key = (before.heap q).key := by
    intro q member
    by_cases same : q = r
    · subst same
      exact exchanged.key member
    · rw [exchanged.others q member same]
  have saved := JsonStore.saveCertificate_contents json sound.distinct keys exchanged.others now how
  rw [← exchanged.store] at saved
  simp only [Ledger.save,World.ledger,← exchanged.store,saved]
  rfl

theorem deliver_ledger (sound : Sound before) (exchanged : Exchanged before after r) (now : Int)
    (how : WriteFile) (label : String) :
    Ledger.deliver json crypto now how label (after.heap r) ⟨before.ledger.store,after.ledger.calls⟩ =
      seen (Manager.deliver crypto (JsonStore.asStore json) now how label r after) := by
  rw [Ledger.deliver,save_ledger sound exchanged,Manager.deliver]
  have heap : (Manager.save (JsonStore.asStore json) now how r after).1.heap = after.heap := rfl
  generalize Manager.save (JsonStore.asStore json) now how r after = saved at heap ⊢
  obtain ⟨w,error⟩ := saved
  cases error with
  | some message => rfl
  | none =>
    change w.heap = after.heap at heap
    rw [← heap]
    rfl

theorem Sound.call (sound : Sound w) (c : Call) : Sound (w.call c) := ⟨sound.distinct,sound.allocated⟩

theorem obtain_ledger (sound : Sound w) (name subject : String) (altNames : List String) :
    w.ledger.obtain json crypto m answers name subject altNames =
      seen (m.obtain crypto (JsonStore.asStore json) answers name subject altNames w) := by
  rw [Ledger.obtain,Manager.obtain,← World.ledger_call]
  generalize asked : w.call (.getCertificate subject altNames m.shouldStaple) = w₀
  have sound : Sound w₀ := asked ▸ sound.call _
  cases answers.issued with
  | error message => rfl
  | ok d =>
    obtain ⟨store,_,value,older⟩ := Manager.issue_spec (JsonStore.asStore json) answers.now
      answers.issuedRenewalInfo name d w₀ _ rfl
    have exchanged : Exchanged w₀ (Manager.issuing (JsonStore.asStore json) answers name d w₀) w₀.fresh :=
      ⟨store,fun stored => absurd (sound.allocated _ stored) (Nat.lt_irrefl _),
        fun q stored _ => older q (sound.allocated q stored)⟩
    have calls : (Manager.issuing (JsonStore.asStore json) answers name d w₀).ledger.calls =
        (w₀.ledger.call (.updateRenewalInfo 0)).calls := by
      unfold Manager.issuing Manager.updateRenewalInfo
      cases answers.issuedRenewalInfo <;> simp [World.ledger,World.call,World.modify,World.alloc,Ledger.call,Call.unaddressed]
    refine Eq.trans ?_ (deliver_ledger sound exchanged answers.now answers.saveIssued subject)
    rw [calls,Manager.issuing,value]
    rfl

theorem staple_ledger (sound : Sound w) (r : Ref) :
    w.ledger.staple json crypto answers (w.heap r) =
      seen (Manager.staple crypto (JsonStore.asStore json) answers r w) := by
  have asked : w.ledger.call (.updateStaple 0) = (w.call (.updateStaple r)).ledger := by
    rw [World.ledger_call]
    rfl
  rw [Ledger.staple,Manager.staple,asked]
  cases answers.staple with
  | error message => rfl
  | ok s =>
    have value : ((w.call (.updateStaple r)).modify r (Details.withStaple s)).heap r = (w.heap r).withStaple s :=
      Function.update_self ..
    have exchanged := Exchanged.modify (Details.withStaple s) (fun _ => rfl) r (w.call (.updateStaple r))
    refine Eq.trans ?_ (deliver_ledger (sound.call _) exchanged answers.now answers.saveStaple (w.heap r).subject)
    rw [value]
    rfl

theorem refresh_ledger (sound : Sound w) (r : Ref) :
    w.ledger.refresh json answers (w.heap r) =
      ((Manager.refresh (JsonStore.asStore json) answers r w).heap r,
        (Manager.refresh (JsonStore.asStore json) answers r w).ledger) := by
  have asked : w.ledger.call (.updateRenewalInfo 0) = (w.call (.updateRenewalInfo r)).ledger := by
    rw [World.ledger_call]
    rfl
  unfold Ledger.refresh Manager.refresh Manager.updateRenewalInfo
  rw [asked]
  split
  · cases answers.renewalInfo with
    | error message => rfl
    | ok info =>
      have value : ((w.call (.updateRenewalInfo r)).modify r (Details.withRenewalInfo info)).heap r =
        (w.heap r).withRenewalInfo info := Function.update_self ..
      have exchanged := Exchanged.modify (Details.withRenewalInfo info) (fun _ => rfl) r
        (w.call (.updateRenewalInfo r))
      refine Prod.ext value.symm (Eq.trans ?_ (congrArg Prod.fst
        (save_ledger (sound.call _) exchanged answers.now answers.saveRenewalInfo)))
      rw [value]
      rfl
  · rfl

theorem proceed_ledger (sound : Sound w) (supplier : Supplier) (name subject : String) (altNames : List String)
    (r : Ref) :
    w.ledger.proceed json crypto m answers supplier name subject altNames (w.heap r) =
      seen (m.proceed crypto (JsonStore.asStore json) answers supplier name subject altNames r w) := by
  rw [Ledger.proceed,Manager.proceed]
  split
  · exact obtain_ledger sound name subject altNames
  · cases (w.heap r).requiresStaple crypto with
    | none => rfl
    | some required =>
      dsimp only
      split
      · exact staple_ledger sound r
      · rfl

/-- Of the stored values the lookup finds the one behind the pointer it would return. -/
theorem getCertificate_ledger (w : World (JsonStore Ref)) (name subject : String) (altNames : List String) :
    w.ledger.store.getCertificate id name subject altNames =
      (w.store.getCertificate w.heap name subject altNames).map w.heap :=
  (selectCertificate_map w.heap name subject altNames none w.store.certificates).symm

theorem getLocked_ledger (sound : Sound w) (supplier : Supplier) (name subject : String) (altNames : List String) :
    w.ledger.getLocked json crypto m answers supplier name subject altNames =
      seen (m.getLocked crypto (JsonStore.asStore json) answers supplier name subject altNames w) := by
  rw [Ledger.getLocked,Manager.getLocked,lookup_json,getCertificate_ledger]
  cases found : w.store.getCertificate w.heap name subject altNames with
  | none => exact obtain_ledger sound name subject altNames
  | some r =>
    have allocated := sound.allocated r ((getCertificate_eq_some_iff sound.distinct).mp found).1
    have rule : Manager.Rule crypto m (JsonStore.asStore json) answers supplier name subject altNames _ _ _ _ :=
      sound_rule
    obtain ⟨sound',-⟩ := rule.refresh sound allocated
    simp only [Option.map_some,refresh_ledger sound r]
    exact proceed_ledger sound' supplier name subject altNames r

variable (json crypto m) in
/-- What a call returns, and what it does to the stored values and the file, is decided by these. -/
theorem apply_ledger (sound : Sound w) (c : ManagerCall) :
    w.ledger.apply json crypto m c = seen (c.apply json crypto m w) := by
  cases c with
  | getCertificate answers preferredSupplier subject altNames =>
    rw [Ledger.apply,ManagerCall.apply,Ledger.getCertificate,Manager.getCertificate]
    cases m.supplier preferredSupplier with
    | error message => rfl
    | ok found =>
      obtain ⟨supplier,name⟩ := found
      simp only [← World.ledger_call,getLocked_ledger (sound.call _)]
      simp [seen]
  | getExistingCertificate now preferredSupplier subject altNames =>
    rw [Ledger.apply,ManagerCall.apply,Ledger.getExistingCertificate,Manager.getExistingCertificate]
    cases m.supplier preferredSupplier with
    | error message => rfl
    | ok found =>
      obtain ⟨supplier,name⟩ := found
      simp only [getCertificate_ledger,lookup_json]
      cases w.store.getCertificate w.heap name subject altNames <;> rfl

end Refinement

/-- The file holds what the store holds: loading it gives the store back. -/
def JsonStore.Current (json : Json) (j : JsonStore Details) : Prop := newStore json j.readFile = .ok j

theorem JsonStore.save_current {json : Json} {j : JsonStore Details} (saved : (save json id now write j).2 = none) :
    (save json id now write j).1.Current json := by
  unfold save at saved ⊢
  dsimp only at saved ⊢
  rw [List.map_id] at saved ⊢
  cases encoded : json.marshalList (pruneCertificates id now j.certificates) with
  | error message => simp [encoded] at saved
  | ok text =>
    rw [encoded] at saved
    cases write with
    | failed message left => cases saved
    | ok => simp [Current,newStore,readFile,load,json.list_round_trip encoded]

namespace Ledger

section Saves

variable (json : Json) (answers : Answers Unit WriteFile) (j : JsonStore Details)

/-- A save goes through: the list is encoded, and the file is written. -/
def Saves (how : WriteFile) (d : Details) : Prop := (j.saveCertificate json id answers.now how d).2 = none

def SavesIssued (name : String) : Prop :=
  ∀ d, answers.issued = .ok d → Saves json answers j answers.saveIssued (d.issuedAs name answers.issuedRenewalInfo)

def SavesStaple (d : Details) : Prop :=
  ∀ s, answers.staple = .ok s → Saves json answers j answers.saveStaple (d.withStaple s)

def SavesRenewalInfo (d : Details) : Prop :=
  ∀ info, d.ariNextUpdate < answers.now → answers.renewalInfo = .ok info →
    Saves json answers j answers.saveRenewalInfo (d.withRenewalInfo info)

structure SavesFound (l : Ledger) (name : String) (d : Details) : Prop where
  renewalInfo : SavesRenewalInfo json answers l.store d
  issued : SavesIssued json answers (l.refresh json answers d).2.store name
  staple : SavesStaple json answers (l.refresh json answers d).2.store (l.refresh json answers d).1

end Saves

/-- Every save goes through that the call may come to. -/
def Written (json : Json) (m : Manager) (l : Ledger) : ManagerCall → Prop
  | .getCertificate answers preferredSupplier subject altNames =>
    ∀ supplier name, m.supplier preferredSupplier = .ok (supplier,name) →
      (l.store.getCertificate id name subject altNames = none → SavesIssued json answers l.store name) ∧
      ∀ d, l.store.getCertificate id name subject altNames = some d → SavesFound json answers l name d
  | .getExistingCertificate _ _ _ _ => True

variable {K : Type} {json : Json} {crypto : Crypto K} {m : Manager} {answers : Answers Unit WriteFile} {l : Ledger}

theorem deliver_current (saves : Saves json answers l.store how d) (label : String) :
    (l.deliver json crypto answers.now how label d).1.store.Current json := by
  have current : (l.save json answers.now how d).1.store.Current json := JsonStore.save_current saves
  unfold deliver
  generalize l.save json answers.now how d = saved at current ⊢
  obtain ⟨after,error⟩ := saved
  cases error <;> exact current

theorem obtain_current (saves : SavesIssued json answers l.store name) (subject : String) (altNames : List String)
    (current : l.store.Current json) :
    (l.obtain json crypto m answers name subject altNames).1.store.Current json := by
  unfold obtain
  dsimp only
  split
  · exact current
  · next d issued => exact deliver_current (l := (l.call _).call _) (saves d issued) subject

theorem staple_current (saves : SavesStaple json answers l.store d) (current : l.store.Current json) :
    (l.staple json crypto answers d).1.store.Current json := by
  unfold staple
  dsimp only
  split
  · exact current
  · next s stapled => exact deliver_current (l := l.call _) (saves s stapled) d.subject

theorem refresh_current (saves : SavesRenewalInfo json answers l.store d) (current : l.store.Current json) :
    (l.refresh json answers d).2.store.Current json := by
  unfold refresh
  split
  next due =>
    split
    · exact current
    · next info informed => exact JsonStore.save_current (saves info due informed)
  next => exact current

theorem proceed_current (issued : SavesIssued json answers l.store name) (stapled : SavesStaple json answers l.store d)
    (supplier : Supplier) (subject : String) (altNames : List String) (current : l.store.Current json) :
    (l.proceed json crypto m answers supplier name subject altNames d).1.store.Current json := by
  unfold proceed
  split
  · exact obtain_current issued subject altNames current
  · split
    · exact current
    · split
      · exact staple_current stapled current
      · exact current

variable (json answers l) in
/-- The log has no bearing on the refresh. -/
theorem refresh_call (c : Call) (d : Details) : (((l.call c).refresh json answers d).1,
    ((l.call c).refresh json answers d).2.store) = ((l.refresh json answers d).1,(l.refresh json answers d).2.store) := by
  unfold refresh
  split
  · cases answers.renewalInfo <;> rfl
  · rfl

/-- As long as no save fails, the file is current after every call. -/
theorem apply_current {c : ManagerCall} (written : l.Written json m c) (current : l.store.Current json) :
    (l.apply json crypto m c).1.store.Current json := by
  cases c with
  | getExistingCertificate => exact current
  | getCertificate answers preferredSupplier subject altNames =>
    rw [apply,getCertificate]
    split
    · exact current
    · next supplier name resolved =>
      obtain ⟨absent,present⟩ := written supplier name resolved
      change JsonStore.Current json (getLocked json crypto m answers supplier name subject altNames _).1.store
      rw [getLocked]
      split
      · next missed => exact obtain_current (l := l.call _) (absent missed) subject altNames current
      · next d found =>
        have saves := present d found
        obtain ⟨value,store⟩ := Prod.mk.inj (refresh_call json answers l (.lockCertificate subject altNames) d)
        refine proceed_current ?_ ?_ supplier subject altNames ?_
        · rw [store]
          exact saves.issued
        · rw [value,store]
          exact saves.staple
        · exact refresh_current (l := l.call _) saves.renewalInfo current

end Ledger

/-- The process stops and starts anew: `NewStore` reads the file, and each entry gets an object of
its own. No pointer of the old process is left, so other objects are of no interest. -/
def World.restart (json : Json) (w : World (JsonStore Ref)) : Except String (World (JsonStore Ref)) :=
  match JsonStore.newStore json w.store.readFile with
  | .error message => .error message
  | .ok loaded => .ok
      { heap r := loaded.certificates[r]?.getD (w.heap r)
        fresh := loaded.certificates.length
        store := ⟨List.range loaded.certificates.length,loaded.file⟩
        calls := w.calls }

/-- Reading a list back by position. -/
theorem map_range_getD (entries : List α) (other : Nat → α) :
    (List.range entries.length).map (fun i => entries[i]?.getD (other i)) = entries := by
  apply List.ext_getElem
  · simp
  · intro i bound bound'
    simp [List.getElem?_eq_getElem bound']

theorem restart_ledger {json : Json} {w : World (JsonStore Ref)} (sound : Sound w)
    (current : w.ledger.store.Current json) :
    ∃ after, w.restart json = .ok after ∧ after.ledger = w.ledger ∧ Sound after := by
  have loaded : JsonStore.newStore json w.store.readFile = .ok w.ledger.store := current
  have values := map_range_getD w.ledger.store.certificates w.heap
  rw [World.restart,loaded]
  refine ⟨_,rfl,?_,?_,fun q => List.mem_range.mp⟩
  · exact congrArg (fun certificates => Ledger.mk ⟨certificates,_⟩ _) values
  · have distinct : Expiring.Distinct (keyOf id) w.ledger.store.certificates := distinct_contents sound.distinct
    rw [← values,Expiring.Distinct,List.map_map] at distinct
    exact distinct

structure Deployment (K : Type) where
  world : World (JsonStore Ref)
  returned : List (Outcome (TlsCertificate K))

inductive DeploymentEvent where
  | call (c : ManagerCall)
  | restart

namespace DeploymentEvent

def isCall : DeploymentEvent → Bool
  | .call _ => true
  | .restart => false

end DeploymentEvent

namespace Deployment

variable {K : Type} (json : Json) (crypto : Crypto K) (m : Manager)

def enabled (s : Deployment K) : DeploymentEvent → Prop
  | .call c => (c.apply json crypto m s.world).2 ≠ .crashed
  | .restart => ∃ after, s.world.restart json = .ok after

def next (s : Deployment K) : DeploymentEvent → Deployment K
  | .call c => ⟨(c.apply json crypto m s.world).1,s.returned ++ [(c.apply json crypto m s.world).2]⟩
  | .restart =>
    match s.world.restart json with
    | .ok after => ⟨after,s.returned⟩
    | .error _ => s

def Written (s : Deployment K) : DeploymentEvent → Prop
  | .call c => s.world.ledger.Written json m c
  | .restart => True

def machine : Machine (Deployment K) DeploymentEvent :=
  Machine.restrict ⟨enabled json crypto m,next json crypto m⟩ (Written json m)

variable {json crypto m}

/-- The deployment is at the same point as another one without its restarts. -/
structure Alike (json : Json) (s plain : Deployment K) : Prop where
  ledger : s.world.ledger = plain.world.ledger
  returned : s.returned = plain.returned
  sound : Sound s.world
  plain_sound : Sound plain.world
  current : s.world.ledger.store.Current json

variable (crypto m) in
theorem Alike.restart {s plain : Deployment K} (alike : Alike json s plain) :
    Alike json (s.next json crypto m .restart) plain := by
  obtain ⟨after,restarted,same,sound⟩ := restart_ledger alike.sound alike.current
  rw [next,restarted]
  exact ⟨same.trans alike.ledger,alike.returned,sound,alike.plain_sound,same ▸ alike.current⟩

variable (crypto m) in
theorem Alike.same {s plain : Deployment K} (alike : Alike json s plain) (c : ManagerCall) :
    (c.apply json crypto m s.world).1.ledger = (c.apply json crypto m plain.world).1.ledger ∧
      (c.apply json crypto m s.world).2 = (c.apply json crypto m plain.world).2 := by
  have values := apply_ledger json crypto m alike.sound c
  rw [alike.ledger,apply_ledger json crypto m alike.plain_sound] at values
  exact Prod.mk.inj values.symm

theorem Alike.call {s plain : Deployment K} (alike : Alike json s plain) {c : ManagerCall}
    (written : s.world.ledger.Written json m c) : Alike json (s.next json crypto m (.call c)) (plain.next json crypto m (.call c)) := by
  obtain ⟨ledger,returned⟩ := alike.same crypto m c
  have current : (s.world.ledger.apply json crypto m c).1.store.Current json :=
    Ledger.apply_current written alike.current
  rw [apply_ledger json crypto m alike.sound] at current
  exact ⟨ledger,by simp [next,alike.returned,returned],ManagerCall.apply_sound alike.sound c,
    ManagerCall.apply_sound alike.plain_sound c,current⟩

/-- Restarts do not show while no save fails. Leaving all of them out of a deployment gives
a deployment that returns the same from every call, makes the same calls to the suppliers and ends
with the same certificates and file; and at its end another restart would succeed. -/
theorem restarts_invisible (json : Json) (crypto : Crypto K) (m : Manager)
    (start : World (JsonStore Ref)) (sound : Sound start) (current : start.ledger.store.Current json)
    (run : (machine json crypto m).Run ⟨start,[]⟩ events final) :
    ∃ plain, (machine json crypto m).Run ⟨start,[]⟩ (events.filter DeploymentEvent.isCall) plain ∧
      plain.returned = final.returned ∧ plain.world.ledger = final.world.ledger ∧
      ∃ after, final.world.restart json = .ok after := by
  have begins : ∃ plain, (machine json crypto m).Run ⟨start,[]⟩
      (([] : List DeploymentEvent).filter DeploymentEvent.isCall) plain ∧ Alike json ⟨start,[]⟩ plain :=
    ⟨⟨start,[]⟩,.nil,rfl,rfl,sound,sound,current⟩
  have follows := run.history (fun past s => ∃ plain,
    (machine json crypto m).Run ⟨start,[]⟩ (past.filter DeploymentEvent.isCall) plain ∧ Alike json s plain) ?_ begins
  · obtain ⟨plain,played,alike⟩ := follows
    obtain ⟨after,restarted,-⟩ := restart_ledger alike.sound alike.current
    exact ⟨plain,played,alike.returned.symm,alike.ledger.symm,after,restarted⟩
  · rintro past s event ⟨plain,played,alike⟩ ⟨enabled,written⟩
    rw [List.filter_append]
    cases event with
    | restart => exact ⟨plain,by simpa [DeploymentEvent.isCall] using played,alike.restart crypto m⟩
    | call c =>
      have lives : (c.apply json crypto m plain.world).2 ≠ .crashed := (alike.same crypto m c).2 ▸ enabled
      have same : plain.world.ledger.Written json m c := alike.ledger ▸ written
      have taken : (machine json crypto m).Enabled plain (.call c) := ⟨lives,same⟩
      exact ⟨_,played.snoc taken,alike.call written⟩

end Deployment

namespace Sample

def storedJson : Json := .ofTable [] [([stored 0 0],"[" ++ storedText ++ "]")] noneAlone (by decide +kernel)

def savedOrder : ManagerCall :=
  .getCertificate { Manager.unreachable (leafNotAfter - 24 * 40 * hour) with issued := .ok (stored 0 0) }
    "" "example.com" []

/-- A restart right after a certificate was issued changes nothing. -/
theorem restarted_alike : ∃ final, (Deployment.machine storedJson crypto manager).Run
      ⟨nothingStored.toWorld,[]⟩ [.call savedOrder,.restart] final ∧
    ∃ plain, (Deployment.machine storedJson crypto manager).Run
      ⟨nothingStored.toWorld,[]⟩ [.call savedOrder] plain ∧
      plain.returned = final.returned ∧ plain.world.ledger = final.world.ledger := by
  have sound : Sound nothingStored.toWorld := ⟨List.nodup_nil,nothingStored.allocated⟩
  have current : nothingStored.toWorld.ledger.store.Current storedJson := rfl
  have written : nothingStored.toWorld.ledger.Written storedJson manager savedOrder := by
    intro supplier name resolved
    obtain ⟨rfl,rfl⟩ := Prod.mk.inj (Except.ok.inj (Manager.sample_supplier.symm.trans resolved))
    refine ⟨fun _ d issued => ?_,fun d found => by cases found⟩
    obtain rfl := Except.ok.inj issued
    unfold Ledger.Saves
    decide +kernel
  have lives : (savedOrder.apply storedJson crypto manager nothingStored.toWorld).2 ≠ .crashed := by
    rw [savedOrder,ManagerCall.apply,Manager.getCertificate,Manager.sample_supplier]
    dsimp only
    rw [Manager.getLocked,lookup_json]
    exact Manager.obtain_survives crypto (JsonStore.asStore storedJson) manager _ _ _ _ _
  have later : (nothingStored.toWorld.ledger.apply storedJson crypto manager savedOrder).1.store.Current
      storedJson := Ledger.apply_current written current
  rw [apply_ledger storedJson crypto manager sound] at later
  obtain ⟨after,restarted,-⟩ := restart_ledger (ManagerCall.apply_sound sound savedOrder) later
  have run : (Deployment.machine storedJson crypto manager).Run ⟨nothingStored.toWorld,[]⟩
      [.call savedOrder,.restart] _ := .cons ⟨lives,written⟩ (.cons ⟨⟨after,restarted⟩,trivial⟩ .nil)
  obtain ⟨plain,played,returned,ledger,-⟩ :=
    Deployment.restarts_invisible storedJson crypto manager _ sound current run
  exact ⟨_,run,plain,played,returned,ledger⟩

end Sample

end Centauri
