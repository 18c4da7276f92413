import Mathlib.Data.List.Basic
import Mathlib.Data.List.Nodup

/-! `http.Header` and the operations on it, each told by what it does to lookups. -/
namespace Centauri

/-- `http.Header`, a map read by `List.lookup`: names that come off the wire are canonical. -/
abbrev HttpHeader := List (String × List String)

def validHeaderFieldByte (c : Char) : Bool := c.isAlphanum || "!#$%&'*+-.^_`|~".toList.contains c

def titleCase (upper : Bool) : List Char → List Char
  | [] => []
  | c :: rest =>
    let c := if upper then c.toUpper else c.toLower
    c :: titleCase (c == '-') rest

def canonicalHeaderKey (s : String) : String :=
  if s.toList.all validHeaderFieldByte then String.ofList (titleCase true s.toList) else s

namespace HttpHeader

def get (name : String) (h : HttpHeader) : String :=
  match h.lookup (canonicalHeaderKey name) with
  | some (value :: _) => value
  | _ => ""

def del (name : String) (h : HttpHeader) : HttpHeader :=
  h.filter fun entry => entry.1 != canonicalHeaderKey name

def set (name value : String) (h : HttpHeader) : HttpHeader :=
  (canonicalHeaderKey name,[value]) :: h.del name

theorem lookup_del (name key : String) (h : HttpHeader) :
    (h.del name).lookup key = if key = canonicalHeaderKey name then none else h.lookup key := by
  induction h with
  | nil => simp [del]
  | cons entry rest ih =>
    obtain ⟨k,values⟩ := entry
    by_cases removed : k = canonicalHeaderKey name
    · have : del name ((k,values) :: rest) = del name rest := by simp [del,removed]
      rw [this,ih]
      by_cases here : key = canonicalHeaderKey name
      · simp [here]
      · have other : (key == k) = false := by simpa [removed] using here
        simp [here,List.lookup_cons,other]
    · have : del name ((k,values) :: rest) = (k,values) :: del name rest := by simp [del,removed]
      rw [this,List.lookup_cons,List.lookup_cons,ih]
      by_cases same : key = k
      · subst same
        simp [removed]
      · have other : (key == k) = false := by simpa using same
        simp [other]

theorem lookup_replaced (name key : String) (values : List String) (h : HttpHeader) :
    List.lookup key ((canonicalHeaderKey name,values) :: h.del name) =
      if key = canonicalHeaderKey name then some values else h.lookup key := by
  rw [List.lookup_cons,lookup_del]
  by_cases here : key = canonicalHeaderKey name
  · simp [here]
  · have other : (key == canonicalHeaderKey name) = false := by simpa using here
    simp [here,other]

theorem lookup_set (name value key : String) (h : HttpHeader) :
    (h.set name value).lookup key =
      if key = canonicalHeaderKey name then some [value] else h.lookup key :=
  lookup_replaced ..

theorem lookup_delAll (names : List String) (key : String) (h : HttpHeader) :
    (names.foldl (fun h name => del name h) h).lookup key =
      if key ∈ names.map canonicalHeaderKey then none else h.lookup key := by
  induction names generalizing h with
  | nil => simp
  | cons name rest ih =>
    rw [List.foldl_cons,ih,lookup_del]
    by_cases here : key = canonicalHeaderKey name
    · simp [here]
    · simp [here]

theorem get_canonical (same : canonicalHeaderKey name = canonicalHeaderKey other) (h : HttpHeader) :
    h.get name = h.get other := by
  unfold get
  rw [same]

theorem get_set (name other value : String) (h : HttpHeader) :
    (h.set other value).get name =
      if canonicalHeaderKey name = canonicalHeaderKey other then value else h.get name := by
  by_cases same : canonicalHeaderKey name = canonicalHeaderKey other
  · simp [get,lookup_set,same]
  · simp [get,lookup_set,same]

def add (name value : String) (h : HttpHeader) : HttpHeader :=
  (canonicalHeaderKey name,(h.lookup (canonicalHeaderKey name)).getD [] ++ [value]) :: h.del name

theorem lookup_add (name value key : String) (h : HttpHeader) :
    (h.add name value).lookup key =
      if key = canonicalHeaderKey name then some ((h.lookup key).getD [] ++ [value]) else h.lookup key := by
  rw [add,lookup_replaced]
  by_cases here : key = canonicalHeaderKey name
  · rw [if_pos here,if_pos here,here]
  · rw [if_neg here,if_neg here]

theorem get_congr {h h' : HttpHeader}
    (same : h.lookup (canonicalHeaderKey name) = h'.lookup (canonicalHeaderKey name)) :
    h.get name = h'.get name := by
  unfold get
  rw [same]

def addAll (name : String) (values : List String) (h : HttpHeader) : HttpHeader :=
  values.foldl (fun h value => h.add name value) h

theorem lookup_addAll (name key : String) (valued : values ≠ []) (h : HttpHeader) :
    (h.addAll name values).lookup key =
      if key = canonicalHeaderKey name then some ((h.lookup key).getD [] ++ values) else h.lookup key := by
  induction values generalizing h with
  | nil => exact absurd rfl valued
  | cons value rest ih =>
    by_cases last : rest = []
    · subst last
      exact lookup_add name value key h
    · change (addAll name rest (h.add name value)).lookup key = _
      rw [ih last,lookup_add]
      by_cases here : key = canonicalHeaderKey name
      · simp [here]
      · simp [here]

/-- A header as it is read off a connection: every name is canonical, occurs once and has a
value. -/
structure Wire (h : HttpHeader) : Prop where
  canonical : ∀ entry ∈ h, canonicalHeaderKey entry.1 = entry.1
  distinct : (h.map Prod.fst).Nodup
  valued : ∀ entry ∈ h, entry.2 ≠ []

theorem Wire.del (wire : Wire h) (name : String) : Wire (h.del name) := by
  have kept : List.Sublist (h.del name) h := List.filter_sublist
  exact ⟨fun entry member => wire.canonical entry (kept.subset member),
    wire.distinct.sublist (kept.map Prod.fst),fun entry member => wire.valued entry (kept.subset member)⟩

theorem Wire.delAll (wire : Wire h) (names : List String) :
    Wire (names.foldl (fun h name => HttpHeader.del name h) h) := by
  induction names generalizing h with
  | nil => exact wire
  | cons name rest ih => exact ih (wire.del name)

def copy (dst src : HttpHeader) : HttpHeader := src.foldl (fun dst entry => dst.addAll entry.1 entry.2) dst

/-- What is copied where nothing of it was is found as it was. -/
theorem lookup_copy (wire : Wire src) (fresh : ∀ entry ∈ src, dst.lookup entry.1 = none) (key : String) :
    (copy dst src).lookup key = (src.lookup key).or (dst.lookup key) := by
  induction src generalizing dst with
  | nil => rfl
  | cons entry rest ih =>
    obtain ⟨name,values⟩ := entry
    have canonical : canonicalHeaderKey name = name := wire.canonical _ List.mem_cons_self
    have valued : values ≠ [] := wire.valued _ List.mem_cons_self
    have later : name ∉ rest.map Prod.fst ∧ (rest.map Prod.fst).Nodup :=
      List.nodup_cons.mp wire.distinct
    have here (key : String) : (addAll name values dst).lookup key =
        if key = name then some values else dst.lookup key := by
      rw [lookup_addAll name key valued,canonical]
      split
      next same => rw [same,fresh _ List.mem_cons_self,Option.getD_none,List.nil_append]
      next => rfl
    have wire' : Wire rest :=
      ⟨fun entry member => wire.canonical entry (List.mem_cons_of_mem _ member),later.2,
        fun entry member => wire.valued entry (List.mem_cons_of_mem _ member)⟩
    have fresh' (entry : String × List String) (member : entry ∈ rest) :
        (addAll name values dst).lookup entry.1 = none := by
      have other : entry.1 ≠ name := fun same => later.1 (same ▸ List.mem_map_of_mem member)
      rw [here,if_neg other]
      exact fresh entry (List.mem_cons_of_mem _ member)
    change (copy (addAll name values dst) rest).lookup key = _
    rw [ih wire' fresh',here,List.lookup_cons]
    by_cases same : key = name
    · have absent : rest.lookup name = none := by
        rw [List.lookup_eq_none_iff]
        intro entry member
        rw [bne_iff_ne]
        rintro rfl
        exact later.1 (List.mem_map_of_mem member)
      simp [same,absent]
    · have other : (key == name) = false := by simpa using same
      simp [same,other]

end HttpHeader

def Agree (names : List String) (h h' : HttpHeader) : Prop :=
  ∀ key ∉ names, h.lookup key = h'.lookup key

theorem Agree.set (agree : Agree (canonicalHeaderKey name :: names) h h') (value : String) :
    Agree names (h.set name value) (h'.set name value) := by
  intro key other
  rw [HttpHeader.lookup_set,HttpHeader.lookup_set]
  split
  · rfl
  next ne => exact agree key (by simp [ne,other])

theorem Agree.del (agree : Agree (canonicalHeaderKey name :: names) h h') :
    Agree names (h.del name) (h'.del name) := by
  intro key other
  rw [HttpHeader.lookup_del,HttpHeader.lookup_del]
  split
  · rfl
  next ne => exact agree key (by simp [ne,other])

/-- Headers that agree everywhere still do when both are given the same value. -/
theorem Agree.overwrite (agree : Agree [] h h') (name value : String) :
    Agree [] (h.set name value) (h'.set name value) :=
  Agree.set (fun key _ => agree key (by simp)) value

/-- Deleting the same names removes them from the difference. -/
theorem Agree.delAll (banned : List String) (agree : Agree (banned.map canonicalHeaderKey ++ names) h h') :
    Agree names (banned.foldl (fun h name => HttpHeader.del name h) h)
      (banned.foldl (fun h name => HttpHeader.del name h) h') := by
  induction banned generalizing h h' with
  | nil => exact agree
  | cons name rest ih => exact ih agree.del

theorem Agree.add (agree : Agree [] h h') (name value : String) :
    Agree [] (h.add name value) (h'.add name value) := by
  intro key other
  rw [HttpHeader.lookup_add,HttpHeader.lookup_add,agree key other]

theorem Agree.get (agree : Agree [] h h') (name : String) : h.get name = h'.get name :=
  HttpHeader.get_congr (agree _ (by simp))

end Centauri
