import Mathlib.Data.List.Nodup
import Mathlib.Data.List.Induction
import Mathlib.Order.Lattice

/-! Lists used as maps whose entries expire. The key of an entry is computed from
the entry, so that equivalent spellings of one key share a slot. -/
namespace Expiring

variable {α κ τ : Type}

def find [DecidableEq κ] (key : α → κ) (k : κ) (entries : List α) : Option α :=
  entries.find? (fun a => decide (key a = k))

def Distinct (key : α → κ) (entries : List α) : Prop := (entries.map key).Nodup

instance [DecidableEq κ] (key : α → κ) (entries : List α) : Decidable (Distinct key entries) :=
  inferInstanceAs (Decidable (entries.map key).Nodup)

theorem Distinct.sublist {key : α → κ} {entries part : List α} (distinct : Distinct key entries)
    (sub : part.Sublist entries) : Distinct key part :=
  List.Nodup.sublist (sub.map key) distinct

theorem Distinct.eq {key : α → κ} {entries : List α} (distinct : Distinct key entries)
    (ha : a ∈ entries) (hb : b ∈ entries) (same : key a = key b) : a = b :=
  List.inj_on_of_nodup_map distinct ha hb same

section Keys

variable [DecidableEq κ] {key : α → κ} {entries : List α}

/-- The first entry with the same key gives way; the new one goes to the end. -/
def replace (key : α → κ) (a : α) (entries : List α) : List α :=
  entries.eraseP (fun b => decide (key b = key a)) ++ [a]

/-- With distinct keys a lookup is membership, whatever the order of the list. -/
theorem find_eq_some_iff (distinct : Distinct key entries) :
    find key k entries = some a ↔ a ∈ entries ∧ key a = k := by
  constructor
  · intro found
    exact ⟨List.mem_of_find?_eq_some found,by simpa using List.find?_some found⟩
  · rintro ⟨member,rfl⟩
    cases found : find key (key a) entries with
    | none => simpa using List.find?_eq_none.mp found a member
    | some b =>
      have same : key b = key a := by simpa using List.find?_some found
      rw [distinct.eq (List.mem_of_find?_eq_some found) member same]

theorem find_congr (distinct : Distinct key entries) (distinct' : Distinct key entries')
    (same : ∀ a, a ∈ entries ↔ a ∈ entries') : find key k entries = find key k entries' := by
  apply Option.ext
  intro a
  rw [find_eq_some_iff distinct,find_eq_some_iff distinct',same]

theorem mem_eraseP_key (distinct : Distinct key entries) :
    b ∈ entries.eraseP (fun c => decide (key c = k)) ↔ b ∈ entries ∧ key b ≠ k := by
  induction entries with
  | nil => simp
  | cons c rest ih =>
    obtain ⟨absent,later⟩ := List.nodup_cons.mp distinct
    by_cases same : key c = k
    · subst k
      rw [List.eraseP_cons_of_pos (by simp)]
      constructor
      · intro member
        exact ⟨List.mem_cons_of_mem c member,fun eq => absent (eq ▸ List.mem_map_of_mem member)⟩
      · rintro ⟨member,ne⟩
        rcases List.mem_cons.mp member with rfl | member
        · exact absurd rfl ne
        · exact member
    · rw [List.eraseP_cons_of_neg (by simpa using same)]
      simp only [List.mem_cons,ih later]
      constructor
      · rintro (rfl | ⟨member,ne⟩)
        · exact ⟨.inl rfl,same⟩
        · exact ⟨.inr member,ne⟩
      · rintro ⟨rfl | member,ne⟩
        · exact .inl rfl
        · exact .inr ⟨member,ne⟩

theorem mem_replace (distinct : Distinct key entries) :
    b ∈ replace key a entries ↔ b = a ∨ b ∈ entries ∧ key b ≠ key a := by
  simp only [replace,List.mem_append,List.mem_singleton,mem_eraseP_key distinct]
  exact or_comm

theorem replace_distinct (distinct : Distinct key entries) :
    Distinct key (replace key a entries) := by
  have kept := distinct.sublist (List.eraseP_sublist (p := fun b => decide (key b = key a)))
  rw [Distinct,replace,List.map_append,List.map_singleton]
  refine kept.append (List.nodup_singleton _) ?_
  intro k left right
  obtain ⟨b,member,rfl⟩ := List.mem_map.mp left
  exact ((mem_eraseP_key distinct).mp member).2 (List.mem_singleton.mp right)

/-- Entries may be pointers: once the value of one has been exchanged under the same key, putting
it to the end is putting the new value among the old ones. -/
theorem map_replace {key : β → κ} {f g : α → β} (distinct : Distinct (key ∘ f) entries)
    (keys : ∀ b ∈ entries, key (g b) = key (f b)) (others : ∀ b ∈ entries, b ≠ a → g b = f b) :
    (replace (key ∘ g) a entries).map g = replace key (g a) (entries.map f) := by
  induction entries with
  | nil => rfl
  | cons b rest ih =>
    obtain ⟨absent,later⟩ := List.nodup_cons.mp distinct
    have here : key (g b) = key (f b) := keys b List.mem_cons_self
    have behind : ∀ c ∈ rest, c ≠ a → g c = f c := fun c member => others c (List.mem_cons_of_mem b member)
    simp only [replace,Function.comp_apply,List.map_append,List.map_cons,List.map_nil] at ih ⊢
    by_cases same : key (g b) = key (g a)
    · rw [List.eraseP_cons_of_pos (by simpa using same),List.eraseP_cons_of_pos (by simpa [← here] using same)]
      congr 1
      refine List.map_congr_left fun c member => behind c member ?_
      rintro rfl
      have equal : key (f c) = key (f b) := by
        rw [← keys c (List.mem_cons_of_mem b member),← same,here]
      exact absent (List.mem_map.mpr ⟨c,member,equal⟩)
    · have apart : b ≠ a := fun eq => same (congrArg (key ∘ g) eq)
      rw [List.eraseP_cons_of_neg (by simpa using same),List.eraseP_cons_of_neg (by simpa [← here] using same),
        List.map_cons,others b List.mem_cons_self apart,List.cons_append,List.cons_append,
        ih later (fun c member => keys c (List.mem_cons_of_mem b member)) behind]

end Keys

section Histories

variable [DecidableEq κ] [LinearOrder τ] {key : α → κ} {expiry : α → τ} {entries : List α}

def live (expiry : α → τ) (now : τ) (a : α) : Bool := decide (now < expiry a)

omit [DecidableEq κ] in
@[simp] theorem live_iff : live expiry now a = true ↔ now < expiry a := by simp [live]

def prune (expiry : α → τ) (now : τ) (entries : List α) : List α :=
  entries.filter (live expiry now)

/-- Saving prunes at the time of the save, the saved entry included. -/
def save (key : α → κ) (expiry : α → τ) (entries : List α) (entry : τ × α) : List α :=
  prune expiry entry.1 (replace key entry.2 entries)

def saveAll (key : α → κ) (expiry : α → τ) (history : List (τ × α)) : List α :=
  history.foldl (save key expiry) []

theorem mem_save (distinct : Distinct key entries) :
    b ∈ save key expiry entries (now,a) ↔
      (b = a ∨ b ∈ entries ∧ key b ≠ key a) ∧ now < expiry b := by
  simp only [save,prune,List.mem_filter,mem_replace distinct,live_iff]

/-- Without distinct keys a save may leave an entry of the same key, but adds no other. -/
theorem mem_of_mem_save (member : b ∈ save key expiry entries (now,a)) : b = a ∨ b ∈ entries := by
  simp only [save,prune,replace,List.mem_filter,List.mem_append,List.mem_singleton] at member
  rcases member.1 with old | same
  · exact .inr (List.mem_of_mem_eraseP old)
  · exact .inl same

theorem mem_save_self (alive : now < expiry a) : a ∈ save key expiry entries (now,a) := by
  simp [save,prune,replace,alive]

theorem mem_save_of_ne (member : b ∈ entries) (ne : key b ≠ key a) (alive : now < expiry b) :
    b ∈ save key expiry entries (now,a) := by
  have kept := (List.mem_eraseP_of_neg (p := fun c => decide (key c = key a)) (by simpa using ne)).mpr member
  simp [save,prune,replace,kept,alive]

theorem save_distinct (distinct : Distinct key entries) :
    Distinct key (save key expiry entries entry) :=
  (replace_distinct distinct).sublist List.filter_sublist

theorem saveAll_snoc : saveAll key expiry (history ++ [entry]) =
    save key expiry (saveAll key expiry history) entry := by
  simp [saveAll]

theorem saveAll_distinct (history : List (τ × α)) : Distinct key (saveAll key expiry history) := by
  induction history using List.reverseRecOn with
  | nil => exact List.nodup_nil
  | append_singleton history entry ih =>
    rw [saveAll_snoc]
    exact save_distinct ih

def latest (key : α → κ) (k : κ) (history : List (τ × α)) : Option α :=
  ((history.map Prod.snd).filter (fun a => decide (key a = k))).getLast?

omit [LinearOrder τ] in
theorem latest_snoc {history : List (τ × α)} :
    latest key k (history ++ [(t,a)]) = if key a = k then some a else latest key k history := by
  by_cases same : key a = k <;> simp [latest,List.filter_append,same]

/-- What a history of saves leaves behind: for each key its last entry, while it lives.
Pruning at the last save subsumes all earlier prunings because times never decrease. -/
theorem mem_saveAll (history : List (τ × α)) (ordered : (history.map Prod.fst).Pairwise (· ≤ ·)) :
    a ∈ saveAll key expiry history ↔
      latest key (key a) history = some a ∧ ∀ entry ∈ history, entry.1 < expiry a := by
  induction history using List.reverseRecOn with
  | nil => simp [saveAll,latest]
  | append_singleton history entry ih =>
    obtain ⟨t,b⟩ := entry
    rw [List.map_append,List.pairwise_append] at ordered
    have bounded : ∀ entry ∈ history, entry.1 ≤ t := fun entry member =>
      ordered.2.2 _ (List.mem_map_of_mem member) t (by simp)
    rw [saveAll_snoc,mem_save (saveAll_distinct history),ih ordered.1,latest_snoc]
    simp only [List.mem_append,List.mem_singleton]
    constructor
    · rintro ⟨rfl | ⟨⟨last,lives⟩,ne⟩,alive⟩
      · refine ⟨by simp,?_⟩
        rintro entry (member | rfl)
        · exact lt_of_le_of_lt (bounded entry member) alive
        · exact alive
      · refine ⟨by rw [if_neg (Ne.symm ne)]; exact last,?_⟩
        rintro entry (member | rfl)
        · exact lives entry member
        · exact alive
    · rintro ⟨last,lives⟩
      refine ⟨?_,lives (t,b) (.inr rfl)⟩
      by_cases same : key b = key a
      · rw [if_pos same] at last
        exact .inl (Option.some.inj last).symm
      · rw [if_neg same] at last
        exact .inr ⟨⟨last,fun entry member => lives entry (.inl member)⟩,Ne.symm same⟩

/-- The same as a lookup at the time of the last save. -/
theorem find_saveAll (history : List (τ × α))
    (ordered : ((history ++ [(now,b)]).map Prod.fst).Pairwise (· ≤ ·)) (k : κ) :
    find key k (saveAll key expiry (history ++ [(now,b)])) =
      (latest key k (history ++ [(now,b)])).filter (live expiry now) := by
  apply Option.ext
  intro a
  rw [find_eq_some_iff (saveAll_distinct _),mem_saveAll _ ordered,Option.filter_eq_some_iff,
    live_iff]
  rw [List.map_append,List.pairwise_append] at ordered
  constructor
  · rintro ⟨⟨last,lives⟩,rfl⟩
    exact ⟨last,lives (now,b) (by simp)⟩
  · rintro ⟨last,alive⟩
    have same : key a = k := by
      have member := List.mem_of_getLast? last
      simpa using (List.mem_filter.mp member).2
    subst k
    refine ⟨⟨last,?_⟩,rfl⟩
    intro entry member
    rcases List.mem_append.mp member with member | member
    · exact lt_of_le_of_lt (ordered.2.2 _ (List.mem_map_of_mem member) now (by simp)) alive
    · rw [List.mem_singleton.mp member]
      exact alive

end Histories

end Expiring
