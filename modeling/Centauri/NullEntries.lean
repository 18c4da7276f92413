import Centauri.CertificateManager

/-! What the file of a store may hold beside certificates. An array may have null entries, which
become nil pointers, and texts that hold no certificate at all; both are read without a check
somewhere. The store and the manager's calls are followed here with such entries. Where there
are none they are those of the store and the manager as modelled elsewhere. -/
namespace Centauri

/-- After the expiry and the renewal time a certificate is due by either. -/
theorem Details.eventually_due (d : Details) (minimumValidity : Int) :
    ∃ now, d.shouldRenew now minimumValidity = true := by
  refine ⟨max (d.notAfter - minimumValidity) d.ariRenewalTime + 1,?_⟩
  unfold shouldRenew
  split
  · simp only [validFor,Bool.not_eq_true',decide_eq_false_iff_not]
    omega
  · simp only [decide_eq_true_eq]
    omega

theorem Outcome.ofExcept_ne_crashed (result : Except String α) : Outcome.ofExcept result ≠ .crashed := by
  cases result <;> simp [Outcome.ofExcept]

namespace Nullable

abbrev Entries := JsonStore (Option Ref)

section Store

variable (heap : Ref → Details)

/-- The loop of `GetCertificate`; `none` is the panic of a nil entry that is asked for its names. -/
def selectCertificate (provider subject : String) (altNames : List String) :
    Option Ref → List (Option Ref) → Option (Option Ref)
  | legacy, [] => some legacy
  | _, none :: _ => none
  | legacy, some r :: rest =>
    if !(heap r).isFor subject altNames then selectCertificate provider subject altNames legacy rest
    else if (heap r).provider == provider then some (some r)
    else if (heap r).provider == "" then selectCertificate provider subject altNames (some r) rest
    else selectCertificate provider subject altNames legacy rest

/-- Nothing after the entry that is removed is looked at. -/
def removeCertificate (provider subject : String) (altNames : List String) :
    List (Option Ref) → Option (List (Option Ref))
  | [] => some []
  | none :: _ => none
  | some r :: rest =>
    if (heap r).isFor subject altNames && (heap r).provider == provider then some rest
    else (removeCertificate provider subject altNames rest).map (some r :: ·)

def pruneCertificates (now : Int) : List (Option Ref) → Option (List (Option Ref))
  | [] => some []
  | none :: _ => none
  | some r :: rest =>
    (pruneCertificates now rest).map fun kept => if (heap r).validFor now 0 then some r :: kept else kept

/-- No nil entry is left when the rest is encoded. -/
def save (json : Json) (now : Int) (write : WriteFile) (j : Entries) : Option (Entries × Option String) :=
  match pruneCertificates heap now j.certificates with
  | none => none
  | some certificates =>
    match json.marshalList (certificates.filterMap (·.map heap)) with
    | .error message => some (⟨certificates,j.file⟩,some message)
    | .ok text =>
      match write with
      | .failed message left => some (⟨certificates,left⟩,some message)
      | .ok => some (⟨certificates,some text⟩,none)

def saveCertificate (json : Json) (now : Int) (write : WriteFile) (r : Ref) (j : Entries) :
    Option (Entries × Option String) :=
  let d := heap r
  match removeCertificate heap d.provider d.subject d.altNames j.certificates with
  | none => none
  | some certificates => save heap json now write { j with certificates := certificates ++ [some r] }

end Store

section Manager

variable {K : Type} (crypto : Crypto K) (json : Json)

def saved (now : Int) (write : WriteFile) (cert : Ref) (w : World Entries) : Option (World Entries × Option String) :=
  (saveCertificate w.heap json now write cert w.store).map fun (contents,error) => ({ w with store := contents },error)

def updateRenewalInfo (now : Int) (answer : Except String RenewalInfo) (saving : Option WriteFile) (cert : Ref)
    (w : World Entries) : Option (World Entries) :=
  let w := w.call (.updateRenewalInfo cert)
  match answer with
  | .error _ => some w
  | .ok info =>
    let w := w.modify cert (Details.withRenewalInfo info)
    match saving with
    | none => some w
    | some write => (saved json now write cert w).map Prod.fst

def deliver (now : Int) (write : WriteFile) (subject : String) (cert : Ref) (w : World Entries) :
    World Entries × Outcome (TlsCertificate K) :=
  match saved json now write cert w with
  | none => (w,.crashed)
  | some (w,some message) => (w,.err ("failed to save certificate for " ++ subject ++ ": " ++ message))
  | some (w,none) => (w,.ofExcept ((w.heap cert).keyPair crypto))

def obtain (m : Manager) (answers : Answers Unit WriteFile) (supplierName subject : String) (altNames : List String)
    (w : World Entries) : World Entries × Outcome (TlsCertificate K) :=
  let w := w.call (.getCertificate subject altNames m.shouldStaple)
  match answers.issued with
  | .error message => (w,.err ("failed to obtain certificate for " ++ subject ++ ": " ++ message))
  | .ok details =>
    let cert := w.fresh
    let w := (w.alloc details).modify cert (Details.withProvider supplierName)
    match updateRenewalInfo json answers.now answers.issuedRenewalInfo none cert w with
    | none => (w,.crashed)
    | some w => deliver crypto json answers.now answers.saveIssued subject cert w

def staple (answers : Answers Unit WriteFile) (cert : Ref) (w : World Entries) :
    World Entries × Outcome (TlsCertificate K) :=
  let w := w.call (.updateStaple cert)
  let subject := (w.heap cert).subject
  match answers.staple with
  | .error message => (w,.err ("failed to obtain OCSP staple for " ++ subject ++ ": " ++ message))
  | .ok s => deliver crypto json answers.now answers.saveStaple subject cert (w.modify cert (Details.withStaple s))

def refresh (answers : Answers Unit WriteFile) (cert : Ref) (w : World Entries) : Option (World Entries) :=
  if (w.heap cert).ariNextUpdate < answers.now then
    updateRenewalInfo json answers.now answers.renewalInfo (some answers.saveRenewalInfo) cert w
  else some w

def proceed (m : Manager) (answers : Answers Unit WriteFile) (supplier : Supplier) (supplierName subject : String)
    (altNames : List String) (cert : Ref) (w : World Entries) : World Entries × Outcome (TlsCertificate K) :=
  if (w.heap cert).shouldRenew answers.now supplier.minCertificateValidity then
    obtain crypto json m answers supplierName subject altNames w
  else
    match (w.heap cert).requiresStaple crypto with
    | none => (w,.crashed)
    | some required =>
      if required && !(w.heap cert).hasStapleFor answers.now supplier.minStapleValidity then
        staple crypto json answers cert w
      else (w,.ofExcept ((w.heap cert).keyPair crypto))

def getLocked (m : Manager) (answers : Answers Unit WriteFile) (supplier : Supplier) (supplierName subject : String)
    (altNames : List String) (w : World Entries) : World Entries × Outcome (TlsCertificate K) :=
  match selectCertificate w.heap supplierName subject altNames none w.store.certificates with
  | none => (w,.crashed)
  | some none => obtain crypto json m answers supplierName subject altNames w
  | some (some cert) =>
    match refresh json answers cert w with
    | none => (w,.crashed)
    | some w => proceed crypto json m answers supplier supplierName subject altNames cert w

def getCertificate (m : Manager) (answers : Answers Unit WriteFile) (preferredSupplier subject : String)
    (altNames : List String) (w : World Entries) : World Entries × Outcome (TlsCertificate K) :=
  match m.supplier preferredSupplier with
  | .error message => (w,.err message)
  | .ok (supplier,supplierName) =>
    let (w,result) := getLocked crypto json m answers supplier supplierName subject altNames
      (w.call (.lockCertificate subject altNames))
    (w.call (.unlockCertificate subject altNames),result)

def getExistingCertificate (m : Manager) (now : Int) (preferredSupplier subject : String) (altNames : List String)
    (w : World Entries) : Existing K :=
  match m.supplier preferredSupplier with
  | .error message => .missing false message
  | .ok (supplier,supplierName) =>
    match selectCertificate w.heap supplierName subject altNames none w.store.certificates with
    | none => .crashed
    | some none => .missing true "no stored certificate found"
    | some (some cert) => Manager.judge crypto now supplier (w.heap cert)

end Manager

/-! Without nil entries. -/

section Embedding

variable (heap : Ref → Details)

theorem selectCertificate_some (provider subject : String) (altNames : List String) (legacy : Option Ref)
    (entries : List Ref) : selectCertificate heap provider subject altNames legacy (entries.map some) =
      some (Centauri.selectCertificate heap provider subject altNames legacy entries) := by
  induction entries generalizing legacy with
  | nil => rfl
  | cons r rest ih =>
    simp only [List.map_cons,selectCertificate,Centauri.selectCertificate,ih]
    split_ifs <;> rfl

theorem removeCertificate_some (provider subject : String) (altNames : List String) (entries : List Ref) :
    removeCertificate heap provider subject altNames (entries.map some) =
      some ((JsonStore.removeCertificate heap provider subject altNames entries).map some) := by
  induction entries with
  | nil => rfl
  | cons r rest ih =>
    simp only [List.map_cons,removeCertificate,JsonStore.removeCertificate,List.eraseP_cons] at ih ⊢
    cases found : (heap r).isFor subject altNames && (heap r).provider == provider with
    | true => rfl
    | false => simp [ih]

theorem pruneCertificates_some (now : Int) (entries : List Ref) :
    pruneCertificates heap now (entries.map some) =
      some ((JsonStore.pruneCertificates heap now entries).map some) := by
  induction entries with
  | nil => rfl
  | cons r rest ih =>
    simp only [List.map_cons,pruneCertificates,JsonStore.pruneCertificates,List.filter_cons] at ih ⊢
    rw [ih,Option.map_some]
    split_ifs <;> rfl

def embed (j : JsonStore Ref) : Entries := ⟨j.certificates.map some,j.file⟩

theorem saveCertificate_embed (json : Json) (now : Int) (write : WriteFile) (r : Ref) (j : JsonStore Ref) :
    saveCertificate heap json now write r (embed j) =
      some (embed (j.saveCertificate json heap now write r).1,(j.saveCertificate json heap now write r).2) := by
  simp only [saveCertificate,embed,removeCertificate_some,JsonStore.saveCertificate]
  generalize JsonStore.removeCertificate heap _ _ _ j.certificates = kept
  have whole : kept.map some ++ [some r] = (kept ++ [r]).map some := by simp
  have decoded : ((JsonStore.pruneCertificates heap now (kept ++ [r])).map some).filterMap (·.map heap) =
      (JsonStore.pruneCertificates heap now (kept ++ [r])).map heap := by
    simp only [List.filterMap_map,Function.comp_def,Option.map_some,List.filterMap_eq_map']
  simp only [save,whole,pruneCertificates_some,decoded,JsonStore.save]
  cases json.marshalList _ with
  | error message => rfl
  | ok text => cases write <;> rfl

def lift (w : World (JsonStore Ref)) : World Entries := ⟨w.heap,w.fresh,embed w.store,w.calls⟩

@[simp] theorem heap_lift (w : World (JsonStore Ref)) : (lift w).heap = w.heap := rfl

variable {K : Type} (crypto : Crypto K) (json : Json)

theorem saved_lift (now : Int) (write : WriteFile) (cert : Ref) (w : World (JsonStore Ref)) :
    saved json now write cert (lift w) =
      some (lift (Manager.save (JsonStore.asStore json) now write cert w).1,
        (Manager.save (JsonStore.asStore json) now write cert w).2) := by
  have stored := saveCertificate_embed w.heap json now write cert w.store
  simp only [saved,lift,stored,Manager.save,JsonStore.asStore]
  rfl

theorem updateRenewalInfo_lift (now : Int) (answer : Except String RenewalInfo) (saving : Option WriteFile)
    (cert : Ref) (w : World (JsonStore Ref)) : updateRenewalInfo json now answer saving cert (lift w) =
      some (lift (Manager.updateRenewalInfo (JsonStore.asStore json) now answer saving cert w)) := by
  cases answer with
  | error message => rfl
  | ok info =>
    cases saving with
    | none => rfl
    | some write =>
      have kept := saved_lift json now write cert
        ((w.call (.updateRenewalInfo cert)).modify cert (Details.withRenewalInfo info))
      exact congrArg (Option.map Prod.fst) kept

theorem deliver_lift (now : Int) (write : WriteFile) (subject : String) (cert : Ref) (w : World (JsonStore Ref)) :
    deliver crypto json now write subject cert (lift w) =
      (lift (Manager.deliver crypto (JsonStore.asStore json) now write subject cert w).1,
        (Manager.deliver crypto (JsonStore.asStore json) now write subject cert w).2) := by
  simp only [deliver,saved_lift,Manager.deliver]
  cases Manager.save (JsonStore.asStore json) now write cert w with
  | mk next error => cases error <;> rfl

theorem obtain_lift (m : Manager) (answers : Answers Unit WriteFile) (supplierName subject : String)
    (altNames : List String) (w : World (JsonStore Ref)) :
    obtain crypto json m answers supplierName subject altNames (lift w) =
      (lift (m.obtain crypto (JsonStore.asStore json) answers supplierName subject altNames w).1,
        (m.obtain crypto (JsonStore.asStore json) answers supplierName subject altNames w).2) := by
  unfold obtain Manager.obtain
  cases answers.issued with
  | error message => rfl
  | ok details =>
    have noted : updateRenewalInfo json answers.now answers.issuedRenewalInfo none
        ((lift w).call (.getCertificate subject altNames m.shouldStaple)).fresh
        ((((lift w).call (.getCertificate subject altNames m.shouldStaple)).alloc details).modify
          ((lift w).call (.getCertificate subject altNames m.shouldStaple)).fresh
          (Details.withProvider supplierName)) = _ :=
      updateRenewalInfo_lift json answers.now answers.issuedRenewalInfo none w.fresh
        (((w.call (.getCertificate subject altNames m.shouldStaple)).alloc details).modify w.fresh
          (Details.withProvider supplierName))
    dsimp only
    rw [noted]
    exact deliver_lift crypto json answers.now answers.saveIssued subject w.fresh _

theorem staple_lift (answers : Answers Unit WriteFile) (cert : Ref) (w : World (JsonStore Ref)) :
    staple crypto json answers cert (lift w) =
      (lift (Manager.staple crypto (JsonStore.asStore json) answers cert w).1,
        (Manager.staple crypto (JsonStore.asStore json) answers cert w).2) := by
  unfold staple Manager.staple
  cases answers.staple with
  | error message => rfl
  | ok s =>
    exact deliver_lift crypto json answers.now answers.saveStaple (w.heap cert).subject cert
      ((w.call (.updateStaple cert)).modify cert (Details.withStaple s))

theorem refresh_lift (answers : Answers Unit WriteFile) (cert : Ref) (w : World (JsonStore Ref)) :
    refresh json answers cert (lift w) =
      some (lift (Manager.refresh (JsonStore.asStore json) answers cert w)) := by
  unfold refresh Manager.refresh
  by_cases due : (w.heap cert).ariNextUpdate < answers.now
  · have due' : ((lift w).heap cert).ariNextUpdate < answers.now := due
    rw [if_pos due,if_pos due',updateRenewalInfo_lift]
  · have due' : ¬((lift w).heap cert).ariNextUpdate < answers.now := due
    rw [if_neg due,if_neg due']

theorem proceed_lift (m : Manager) (answers : Answers Unit WriteFile) (supplier : Supplier)
    (supplierName subject : String) (altNames : List String) (cert : Ref) (w : World (JsonStore Ref)) :
    proceed crypto json m answers supplier supplierName subject altNames cert (lift w) =
      (lift (m.proceed crypto (JsonStore.asStore json) answers supplier supplierName subject altNames cert w).1,
        (m.proceed crypto (JsonStore.asStore json) answers supplier supplierName subject altNames cert w).2) := by
  have contents : (lift w).heap = w.heap := rfl
  simp only [proceed,Manager.proceed,contents,obtain_lift,staple_lift]
  split
  · rfl
  · cases (w.heap cert).requiresStaple crypto with
    | none => rfl
    | some required =>
      dsimp only
      split <;> rfl

theorem getLocked_lift (m : Manager) (answers : Answers Unit WriteFile) (supplier : Supplier)
    (supplierName subject : String) (altNames : List String) (w : World (JsonStore Ref)) :
    getLocked crypto json m answers supplier supplierName subject altNames (lift w) =
      (lift (m.getLocked crypto (JsonStore.asStore json) answers supplier supplierName subject altNames w).1,
        (m.getLocked crypto (JsonStore.asStore json) answers supplier supplierName subject altNames w).2) := by
  have selected : selectCertificate (lift w).heap supplierName subject altNames none (lift w).store.certificates =
      some (w.store.getCertificate w.heap supplierName subject altNames) :=
    selectCertificate_some w.heap supplierName subject altNames none w.store.certificates
  rw [getLocked,selected]
  simp only [Manager.getLocked,Manager.lookup,JsonStore.asStore]
  cases w.store.getCertificate w.heap supplierName subject altNames with
  | none => exact obtain_lift crypto json m answers supplierName subject altNames w
  | some cert =>
    dsimp only
    rw [refresh_lift]
    exact proceed_lift crypto json m answers supplier supplierName subject altNames cert _

/-- The calls behave as they do for a store of pointers that are never nil. -/
theorem getCertificate_lift (m : Manager) (answers : Answers Unit WriteFile) (preferredSupplier subject : String)
    (altNames : List String) (w : World (JsonStore Ref)) :
    getCertificate crypto json m answers preferredSupplier subject altNames (lift w) =
      (lift (m.getCertificate crypto (JsonStore.asStore json) answers preferredSupplier subject altNames w).1,
        (m.getCertificate crypto (JsonStore.asStore json) answers preferredSupplier subject altNames w).2) := by
  unfold getCertificate Manager.getCertificate
  cases m.supplier preferredSupplier with
  | error message => rfl
  | ok found =>
    obtain ⟨supplier,supplierName⟩ := found
    dsimp only
    have locked := getLocked_lift crypto json m answers supplier supplierName subject altNames
      (w.call (.lockCertificate subject altNames))
    have called : (lift w).call (.lockCertificate subject altNames) =
        lift (w.call (.lockCertificate subject altNames)) := rfl
    rw [called,locked]
    rfl

theorem getExistingCertificate_lift (m : Manager) (now : Int) (preferredSupplier subject : String)
    (altNames : List String) (w : World (JsonStore Ref)) :
    getExistingCertificate crypto m now preferredSupplier subject altNames (lift w) =
      (m.getExistingCertificate crypto (JsonStore.asStore json) now () preferredSupplier subject altNames w).2 := by
  have selected (supplierName : String) :
      selectCertificate (lift w).heap supplierName subject altNames none (lift w).store.certificates =
        some (w.store.getCertificate w.heap supplierName subject altNames) :=
    selectCertificate_some w.heap supplierName subject altNames none w.store.certificates
  unfold getExistingCertificate Manager.getExistingCertificate
  cases m.supplier preferredSupplier with
  | error message => rfl
  | ok found =>
    obtain ⟨supplier,supplierName⟩ := found
    dsimp only
    rw [selected]
    simp only [Manager.lookup,JsonStore.asStore]
    cases w.store.getCertificate w.heap supplierName subject altNames <;> rfl

end Embedding

/-! With nil entries nothing can be saved. -/

section Null

variable {heap : Ref → Details}

theorem pruneCertificates_null (null : none ∈ entries) (now : Int) : pruneCertificates heap now entries = none := by
  induction entries with
  | nil => simp at null
  | cons entry rest ih =>
    cases entry with
    | none => rfl
    | some r =>
      have later : none ∈ rest := by simpa using null
      simp [pruneCertificates,ih later]

theorem removeCertificate_null (null : none ∈ entries)
    (removed : removeCertificate heap provider subject altNames entries = some kept) : none ∈ kept := by
  induction entries generalizing kept with
  | nil => simp at null
  | cons entry rest ih =>
    cases entry with
    | none => simp [removeCertificate] at removed
    | some r =>
      have later : none ∈ rest := by simpa using null
      unfold removeCertificate at removed
      split at removed
      · obtain rfl : rest = kept := by simpa using removed
        exact later
      · obtain ⟨shorter,done,rfl⟩ := Option.map_eq_some_iff.mp removed
        exact List.mem_cons_of_mem _ (ih later done)

theorem saveCertificate_null {j : Entries} (null : none ∈ j.certificates) (json : Json) (now : Int)
    (write : WriteFile) (r : Ref) : saveCertificate heap json now write r j = none := by
  unfold saveCertificate
  dsimp only
  split
  · rfl
  next kept removed =>
    have left : none ∈ kept ++ [some r] := List.mem_append_left _ (removeCertificate_null null removed)
    simp [save,pruneCertificates_null left]

variable {K : Type} (crypto : Crypto K) (json : Json)

theorem deliver_null {w : World Entries} (null : none ∈ w.store.certificates) (now : Int) (write : WriteFile)
    (subject : String) (cert : Ref) : (deliver crypto json now write subject cert w).2 = .crashed := by
  simp [deliver,saved,saveCertificate_null null]

/-- What is issued cannot be saved. -/
theorem obtain_null {w : World Entries} (null : none ∈ w.store.certificates) (m : Manager)
    {answers : Answers Unit WriteFile} (issued : answers.issued = .ok details)
    (silent : answers.issuedRenewalInfo = .error message) (supplierName subject : String) (altNames : List String) :
    (obtain crypto json m answers supplierName subject altNames w).2 = .crashed := by
  simp only [obtain,issued,silent,updateRenewalInfo]
  apply deliver_null
  exact null

def issuing (now : Int) (details : Details) : Answers Unit WriteFile :=
  ⟨now,(),.error "",.ok,.ok details,.error "",.ok,.error "",.ok⟩

/-- Sooner or later a certificate is issued. -/
theorem getLocked_null {w : World Entries} (null : none ∈ w.store.certificates) (m : Manager) (supplier : Supplier)
    (supplierName subject : String) (altNames : List String) (details : Details) :
    ∃ now, (getLocked crypto json m (issuing now details) supplier supplierName subject altNames w).2 = .crashed := by
  cases selected : selectCertificate w.heap supplierName subject altNames none w.store.certificates with
  | none => exact ⟨0,by simp [getLocked,selected]⟩
  | some result =>
    cases result with
    | none => exact ⟨0,by
        simp only [getLocked,selected]
        exact obtain_null crypto json null m rfl rfl supplierName subject altNames⟩
    | some cert =>
      obtain ⟨now,due⟩ := (w.heap cert).eventually_due supplier.minCertificateValidity
      refine ⟨now,?_⟩
      have noted : ∃ calls, refresh json (issuing now details) cert w = some { w with calls := calls } := by
        unfold refresh
        split
        · exact ⟨_,rfl⟩
        · exact ⟨w.calls,rfl⟩
      obtain ⟨calls,refreshed⟩ := noted
      simp only [getLocked,selected,refreshed,proceed]
      have due' : (w.heap cert).shouldRenew (issuing now details).now supplier.minCertificateValidity = true := due
      rw [if_pos due']
      apply obtain_null crypto json _ m rfl rfl
      exact null

end Null

end Nullable

/-! Without nil entries only a text without a certificate is in the way. -/

section Undecodable

theorem Details.requiresStaple_eq_none {crypto : Crypto K} {d : Details} :
    d.requiresStaple crypto = none ↔ crypto.extensions d.certificate = none := by
  unfold requiresStaple
  cases crypto.extensions d.certificate with
  | none => simp
  | some parsed => cases parsed <;> simp

namespace Manager

variable {σ ι ω K : Type} (crypto : Crypto K) (store : Store σ ι ω)

theorem deliver_survives (now : Int) (how : ω) (subject : String) (cert : Ref) (w : World σ) :
    (deliver crypto store now how subject cert w).2 ≠ .crashed := by
  unfold deliver
  cases save store now how cert w with
  | mk next error =>
    cases error with
    | some message => simp
    | none => exact Outcome.ofExcept_ne_crashed _

theorem obtain_survives (m : Manager) (answers : Answers ι ω) (supplierName subject : String) (altNames : List String)
    (w : World σ) : (m.obtain crypto store answers supplierName subject altNames w).2 ≠ .crashed := by
  unfold Manager.obtain
  cases answers.issued with
  | error message => simp
  | ok details => apply deliver_survives

theorem staple_survives (answers : Answers ι ω) (cert : Ref) (w : World σ) :
    (staple crypto store answers cert w).2 ≠ .crashed := by
  unfold staple
  cases answers.staple with
  | error message => simp
  | ok s => apply deliver_survives

theorem proceed_survives {w : World σ} (decodes : (crypto.extensions (w.heap cert).certificate).isSome = true)
    (m : Manager) (answers : Answers ι ω) (supplier : Supplier) (supplierName subject : String)
    (altNames : List String) :
    (m.proceed crypto store answers supplier supplierName subject altNames cert w).2 ≠ .crashed := by
  unfold proceed
  split
  · apply obtain_survives
  · cases required : (w.heap cert).requiresStaple crypto with
    | none => simp [Details.requiresStaple_eq_none.mp required] at decodes
    | some must =>
      dsimp only
      split
      · apply staple_survives
      · exact Outcome.ofExcept_ne_crashed _

/-- A refresh writes no text. -/
theorem refresh_certificate (answers : Answers ι ω) (cert : Ref) (w : World σ) :
    ((refresh store answers cert w).heap cert).certificate = (w.heap cert).certificate := by
  unfold refresh updateRenewalInfo
  split
  · cases answers.renewalInfo with
    | error message => rfl
    | ok info => simp [save,World.call,World.modify,Details.withRenewalInfo]
  · rfl

theorem judge_survives (decodes : (crypto.extensions d.certificate).isSome = true) (now : Int) (supplier : Supplier) :
    judge crypto now supplier d ≠ .crashed := by
  unfold judge
  split
  · simp
  · cases required : d.requiresStaple crypto with
    | none => simp [Details.requiresStaple_eq_none.mp required] at decodes
    | some must =>
      dsimp only
      split
      · simp
      · cases d.keyPair crypto <;> simp

/-- The last moment of a certificate is late enough to ask for its extensions. -/
theorem judge_crashes (undecodable : crypto.extensions d.certificate = none) (supplier : Supplier) :
    judge crypto (d.notAfter - 1) supplier d = .crashed := by
  have valid : d.validFor (d.notAfter - 1) 0 = true := by
    rw [Details.validFor_iff]
    omega
  simp [judge,valid,Details.requiresStaple_eq_none.mpr undecodable]

end Manager

end Undecodable

/-- What a store of pointers holds for a provider and some names: the first certificate of the
provider, or else the last of no provider. -/
def held (heap : Ref → Details) (provider subject : String) (altNames : List String) (entries : List Ref) :
    Option Ref :=
  (entries.find? fun r => (heap r).isFor subject altNames && (heap r).provider == provider).or
    (entries.filter fun r => (heap r).isFor subject altNames && (heap r).provider == "").getLast?

theorem selectCertificate_eq_held (heap : Ref → Details) (provider subject : String) (altNames : List String)
    (legacy : Option Ref) (entries : List Ref) :
    selectCertificate heap provider subject altNames legacy entries =
      (held heap provider subject altNames entries).or legacy := by
  induction entries generalizing legacy with
  | nil => rfl
  | cons r rest ih =>
    unfold selectCertificate
    by_cases named : (heap r).isFor subject altNames = true
    · by_cases own : (heap r).provider = provider
      · simp [held,named,own]
      · by_cases bare : (heap r).provider = ""
        · have another : ¬"" = provider := fun eq => own (bare.trans eq)
          simp only [named,bare,Bool.not_true,Bool.false_eq_true,if_false,beq_iff_eq,another,if_true,ih,held]
          simp [named,bare,another,List.getLast?_cons]
        · simp [ih,held,named,own,bare]
    · simp [ih,held,named]

namespace Nullable

variable {K : Type} (crypto : Crypto K) (json : Json) (m : Manager) (preferredSupplier subject : String)
  (altNames : List String) (w : World Entries)

/-- Neither call panics, whatever the time and the supplier's answers, and what holds no
certificate is not handed out: it is an error for both, or another is asked for. -/
structure Survives : Prop where
  existing : ∀ now, getExistingCertificate crypto m now preferredSupplier subject altNames w ≠ .crashed
  obtained : ∀ answers, (getCertificate crypto json m answers preferredSupplier subject altNames w).2 ≠ .crashed
  refused : ∀ supplier supplierName cert, m.supplier preferredSupplier = .ok (supplier,supplierName) →
    selectCertificate w.heap supplierName subject altNames none w.store.certificates = some (some cert) →
    crypto.extensions (w.heap cert).certificate = none →
    (∀ now, ∃ needsRenewal message,
      getExistingCertificate crypto m now preferredSupplier subject altNames w = .missing needsRenewal message) ∧
    ∀ answers, (∃ message,
        (getCertificate crypto json m answers preferredSupplier subject altNames w).2 = .err message) ∨
      .getCertificate subject altNames m.shouldStaple ∈
        (getCertificate crypto json m answers preferredSupplier subject altNames w).1.calls

structure Sound (supplierName : String) : Prop where
  present : none ∉ w.store.certificates
  decodes : ∀ cert, held w.heap supplierName subject altNames (w.store.certificates.filterMap id) = some cert →
    (crypto.extensions (w.heap cert).certificate).isSome = true

variable {crypto json m preferredSupplier subject altNames w}

theorem exists_lift (present : none ∉ w.store.certificates) :
    ∃ w', w = lift w' ∧ w'.store.certificates = w.store.certificates.filterMap id := by
  have whole : (w.store.certificates.filterMap id).map some = w.store.certificates := by
    generalize w.store.certificates = entries at present
    induction entries with
    | nil => rfl
    | cons entry rest ih =>
      cases entry with
      | none => simp at present
      | some r =>
        have later : none ∉ rest := by simpa using present
        simpa using ih later
  refine ⟨⟨w.heap,w.fresh,⟨w.store.certificates.filterMap id,w.store.file⟩,w.calls⟩,?_,rfl⟩
  simp only [lift,embed,whole]

theorem selected_lift {w' : World (JsonStore Ref)} (supplierName : String) :
    selectCertificate (lift w').heap supplierName subject altNames none (lift w').store.certificates =
      some (held w'.heap supplierName subject altNames w'.store.certificates) := by
  have selected := selectCertificate_some w'.heap supplierName subject altNames none w'.store.certificates
  rw [selectCertificate_eq_held,Option.or_none] at selected
  exact selected

theorem Sound.survives (resolved : m.supplier preferredSupplier = .ok (supplier,supplierName))
    (sound : Sound crypto subject altNames w supplierName) :
    Survives crypto json m preferredSupplier subject altNames w := by
  obtain ⟨w',rfl,entries⟩ := exists_lift sound.present
  have decodes : ∀ cert, held w'.heap supplierName subject altNames w'.store.certificates = some cert →
      (crypto.extensions (w'.heap cert).certificate).isSome = true := by
    intro cert found
    rw [entries] at found
    exact sound.decodes cert found
  refine ⟨fun now => ?_,fun answers => ?_,?_⟩
  · rw [getExistingCertificate_lift crypto json]
    simp only [Manager.getExistingCertificate,resolved,Manager.lookup,JsonStore.asStore,JsonStore.getCertificate,
      selectCertificate_eq_held,Option.or_none]
    cases found : held w'.heap supplierName subject altNames w'.store.certificates with
    | none => simp [World.take]
    | some cert => exact Manager.judge_survives crypto (decodes cert found) now supplier
  · rw [getCertificate_lift]
    simp only [Manager.getCertificate,resolved,Manager.getLocked,Manager.lookup,JsonStore.asStore,
      JsonStore.getCertificate,selectCertificate_eq_held,Option.or_none]
    have found : held (w'.call (.lockCertificate subject altNames)).heap supplierName subject altNames
        (w'.call (.lockCertificate subject altNames)).store.certificates =
        held w'.heap supplierName subject altNames w'.store.certificates := rfl
    rw [found]
    cases found : held w'.heap supplierName subject altNames w'.store.certificates with
    | none => apply Manager.obtain_survives
    | some cert =>
      apply Manager.proceed_survives
      rw [Manager.refresh_certificate]
      exact decodes cert found
  · intro other otherName cert resolved' selected undecodable
    obtain ⟨rfl,rfl⟩ : other = supplier ∧ otherName = supplierName := by
      rw [resolved] at resolved'
      simpa [eq_comm] using resolved'
    rw [selected_lift,Option.some.injEq] at selected
    have some := decodes cert selected
    rw [heap_lift] at undecodable
    simp [undecodable] at some

/-- Stored data takes the manager down exactly where an entry is nil or the certificate for the
names has a text without a PEM block. -/
theorem survives_iff : Survives crypto json m preferredSupplier subject altNames w ↔
    ∀ supplier supplierName, m.supplier preferredSupplier = .ok (supplier,supplierName) →
      Sound crypto subject altNames w supplierName := by
  constructor
  · intro survives supplier supplierName resolved
    have present : none ∉ w.store.certificates := by
      intro null
      obtain ⟨now,crashed⟩ := getLocked_null crypto json (w := w.call (.lockCertificate subject altNames)) null m
        supplier supplierName subject altNames (w.heap 0)
      refine survives.obtained (issuing now (w.heap 0)) ?_
      simpa only [getCertificate,resolved] using crashed
    refine ⟨present,fun cert found => ?_⟩
    obtain ⟨w',rfl,entries⟩ := exists_lift present
    rw [← entries] at found
    rw [heap_lift] at found ⊢
    by_contra undecodable
    have none : crypto.extensions (w'.heap cert).certificate = none := by simpa using undecodable
    refine survives.existing ((w'.heap cert).notAfter - 1) ?_
    simp only [getExistingCertificate,resolved]
    rw [selected_lift,found]
    exact Manager.judge_crashes crypto none supplier
  · intro sound
    cases resolved : m.supplier preferredSupplier with
    | ok found => exact (sound found.1 found.2 resolved).survives resolved
    | error message =>
      refine ⟨fun now => ?_,fun answers => ?_,fun supplier supplierName cert resolved' => ?_⟩
      · simp [getExistingCertificate,resolved]
      · simp [getCertificate,resolved]
      · rw [resolved] at resolved'
        cases resolved'

def loaded (entries : List (Option Details)) : World Entries where
  heap i := (entries[i]?.join).getD (Sample.bare "" "" [] 0)
  fresh := entries.length
  store := ⟨entries.mapIdx fun i entry => entry.map fun _ => i,none⟩
  calls := []

/-- Every array is the contents of some store. -/
theorem loaded_contents (entries : List (Option Details)) :
    (loaded entries).store.certificates.map (Option.map (loaded entries).heap) = entries := by
  apply List.ext_getElem
  · simp [loaded]
  · intro i bound bound'
    simp only [loaded,List.getElem_map,List.getElem_mapIdx]
    cases entry : entries[i] with
    | none => rfl
    | some d => simp [List.getElem?_eq_getElem bound',entry]

end Nullable

namespace Sample

def blanked : Details := { stored 0 0 with certificate := "" }

/-- A null in the array, or a certificate without its text, takes the process down: the second in
both calls, as long as it is not due. -/
theorem storedData_crashes :
    Nullable.getExistingCertificate crypto manager 0 "lego" "example.com" [] (Nullable.loaded [none]) = .crashed ∧
    Nullable.getExistingCertificate crypto manager (leafNotAfter - 1) "lego" "example.com" []
      (Nullable.loaded [some blanked]) = .crashed ∧
    (Nullable.getCertificate crypto json manager (Nullable.issuing (leafNotAfter - 31 * 24 * hour) issued) "lego"
      "example.com" [] (Nullable.loaded [some blanked])).2 = .crashed ∧
    ¬Nullable.Survives crypto json manager "lego" "example.com" [] (Nullable.loaded [none]) ∧
    ¬Nullable.Survives crypto json manager "lego" "example.com" [] (Nullable.loaded [some blanked]) := by
  have null : Nullable.getExistingCertificate crypto manager 0 "lego" "example.com" [] (Nullable.loaded [none]) =
      .crashed := by decide +kernel
  have blank : Nullable.getExistingCertificate crypto manager (leafNotAfter - 1) "lego" "example.com" []
      (Nullable.loaded [some blanked]) = .crashed := by decide +kernel
  refine ⟨null,blank,by decide +kernel,?_,?_⟩
  · exact fun survives => survives.existing 0 null
  · exact fun survives => survives.existing (leafNotAfter - 1) blank

end Sample

end Centauri
