import Mathlib.Algebra.Group.Int.Defs
import Mathlib.Algebra.Group.Nat.Defs
import Mathlib.Data.Char
import Mathlib.Data.List.TakeWhile

/-! The text functions of Go's standard library that routes and their configuration rest
on. A string is the sequence of its runes. -/

/-- What is used of `unicode.ToLower`: how it treats ASCII, and that whatever else it maps
there becomes a letter, as the Kelvin sign does. -/
structure UnicodeLower (lower : Char → Char) : Prop where
  ascii : ∀ c, c.toNat < 128 → lower c = c.toLower
  letter : ∀ c, 128 ≤ c.toNat → (lower c).toNat < 128 → (lower c).isLower = true

namespace UnicodeLower

theorem between_iff (low high : UInt32) (c : Char) :
    c.val ≥ low ∧ c.val ≤ high ↔ low.toNat ≤ c.toNat ∧ c.toNat ≤ high.toNat := by
  rw [ge_iff_le,UInt32.le_iff_toNat_le,UInt32.le_iff_toNat_le]
  rfl

theorem isUpper_iff (c : Char) : c.isUpper = true ↔ 65 ≤ c.toNat ∧ c.toNat ≤ 90 :=
  decide_eq_true_iff.trans (between_iff 65 90 c)

theorem both_iff {p q : Prop} [Decidable p] [Decidable q] : (decide p && decide q) = true ↔ p ∧ q := by
  simp

theorem isLower_iff (c : Char) : c.isLower = true ↔ 97 ≤ c.toNat ∧ c.toNat ≤ 122 :=
  both_iff.trans (between_iff 97 122 c)

theorem isDigit_iff (c : Char) : c.isDigit = true ↔ 48 ≤ c.toNat ∧ c.toNat ≤ 57 :=
  both_iff.trans (between_iff 48 57 c)

theorem same_or_isLower (c : Char) : c.toLower = c ∨ c.toLower.isLower = true := by
  unfold Char.toLower
  split
  next upper =>
    right
    have bounds : 65 ≤ c.toNat ∧ c.toNat ≤ 90 := by
      simpa [UInt32.le_iff_toNat_le] using upper
    rw [isLower_iff]
    have value : c.val.toNat = c.toNat := rfl
    simp
    omega
  next => exact .inl rfl

theorem toLower_toLower (c : Char) : c.toLower.toLower = c.toLower := by
  rcases same_or_isLower c with same | letter
  · rw [same,same]
  · have bounds := (isLower_iff _).mp letter
    generalize c.toLower = d at bounds
    have small : ¬(65 ≤ d.toNat ∧ d.toNat ≤ 90) := by omega
    unfold Char.toLower
    rw [dif_neg]
    simpa [UInt32.le_iff_toNat_le] using small

theorem toLower_ascii {c : Char} (narrow : c.toNat < 128) : c.toLower.toNat < 128 := by
  rcases same_or_isLower c with same | letter
  · rwa [same]
  · have bounds := (isLower_iff _).mp letter
    omega

/-- Lower-casing nothing but ASCII behaves as required. -/
theorem toLower : UnicodeLower Char.toLower := by
  refine ⟨fun _ _ => rfl,fun c wide narrow => ?_⟩
  rcases same_or_isLower c with same | letter
  · rw [same] at narrow
    omega
  · exact letter

variable {lower : Char → Char}

/-- A character that no lower-casing concerns is reached from itself alone. -/
theorem eq_iff (unicode : UnicodeLower lower) (narrow : d.toNat < 128) (other : d.isLower = false)
    (fixed : d.toLower = d) (c : Char) : lower c = d ↔ c = d := by
  constructor
  · rintro rfl
    by_cases wide : c.toNat < 128
    · rw [unicode.ascii c wide] at other ⊢
      rcases same_or_isLower c with same | letter
      · exact same.symm
      · simp [letter] at other
    · rw [unicode.letter c (by omega) narrow] at other
      cases other
  · rintro rfl
    rw [unicode.ascii c narrow,fixed]

theorem colon (unicode : UnicodeLower lower) (c : Char) : lower c = ':' ↔ c = ':' :=
  unicode.eq_iff (by decide) (by decide) (by decide) c

end UnicodeLower

namespace Strings

def toLower (lower : Char → Char) (s : String) : String := String.ofList (s.toList.map lower)

@[simp] theorem toList_toLower (lower : Char → Char) (s : String) :
    (toLower lower s).toList = s.toList.map lower := String.toList_ofList

theorem toLower_ascii {lower : Char → Char} (unicode : UnicodeLower lower)
    (narrow : ∀ c ∈ s.toList, c.toNat < 128) : toLower lower s = toLower Char.toLower s := by
  apply congrArg String.ofList
  apply List.map_congr_left
  intro c member
  exact unicode.ascii c (narrow c member)

def isSpace (c : Char) : Bool :=
  let n := c.toNat
  (9 ≤ n && n ≤ 13) || n == 0x20 || n == 0x85 || n == 0xA0 || n == 0x1680 ||
    (0x2000 ≤ n && n ≤ 0x200A) || n == 0x2028 || n == 0x2029 || n == 0x202F || n == 0x205F || n == 0x3000

def trimSpace (s : String) : String :=
  String.ofList ((s.toList.dropWhile isSpace).reverse.dropWhile isSpace).reverse

/-- The text before the first separator, the text after it, and whether there is one. -/
def cut (sep : Char) (s : String) : String × String × Bool :=
  match s.toList.idxOf? sep with
  | none => (s,"",false)
  | some i => (String.ofList (s.toList.take i),String.ofList (s.toList.drop (i + 1)),true)

def split (sep : Char) (s : String) : List String := (s.toList.splitOn sep).map String.ofList

def splitN (sep : Char) : Nat → String → List String
  | 0, _ => []
  | 1, s => [s]
  | n + 2, s =>
    match cut sep s with
    | (before,after,true) => before :: splitN sep (n + 1) after
    | (before,_,false) => [before]

def fields (s : String) : List String :=
  ((s.toList.splitOnP isSpace).filter fun part => !part.isEmpty).map String.ofList

def containsAny (s chars : String) : Bool := s.toList.any fun c => chars.toList.contains c

/-- `strconv.Atoi` where `int` has 64 bits; `none` stands for an error. -/
def atoi (s : String) : Option Int :=
  let magnitude (digits : List Char) : Option Nat :=
    if digits.isEmpty || !digits.all Char.isDigit then none
    else some (digits.foldl (fun n c => 10 * n + (c.toNat - '0'.toNat)) 0)
  let value : Option Int :=
    match s.toList with
    | '+' :: digits => (magnitude digits).map fun n => (n : Int)
    | '-' :: digits => (magnitude digits).map fun n => -(n : Int)
    | digits => (magnitude digits).map fun n => (n : Int)
  value.filter fun n => decide (-2 ^ 63 ≤ n ∧ n < 2 ^ 63)

def trimSuffix (s suffix : String) : String :=
  if suffix.toList <:+ s.toList then String.ofList (s.toList.take (s.toList.length - suffix.toList.length)) else s

def count (s : String) (c : Char) : Nat := s.toList.count c

def fromFirst (c : Char) (s : String) : String := String.ofList (s.toList.dropWhile (· != c))

theorem trimSuffix_append (whole : front ++ suffix.toList = s.toList) :
    trimSuffix s suffix = String.ofList front := by
  rw [trimSuffix,if_pos ⟨front,whole⟩,← whole,List.length_append,Nat.add_sub_cancel,List.take_left]

/-- What is before a suffix and has no separator ends at the first one. -/
theorem trimSuffix_label (starts : suffix.toList = c :: rest) :
    trimSuffix s suffix ≠ s ∧ count (trimSuffix s suffix) c = 0 ↔ suffix = fromFirst c s := by
  have shown : suffix = fromFirst c s ↔ suffix.toList = s.toList.dropWhile (· != c) := by
    rw [← String.toList_inj,fromFirst,String.toList_ofList]
  rw [shown]
  constructor
  · rintro ⟨changed,free⟩
    by_cases ends : suffix.toList <:+ s.toList
    · obtain ⟨front,whole⟩ := ends
      rw [trimSuffix_append whole,count,String.toList_ofList,List.count_eq_zero] at free
      have passed (d : Char) (member : d ∈ front) : (d != c) = true :=
        bne_iff_ne.mpr fun same => free (same ▸ member)
      rw [← whole,List.dropWhile_append_of_pos passed,starts]
      simp
    · exact absurd (if_neg ends) changed
  · intro same
    have whole : s.toList.takeWhile (· != c) ++ suffix.toList = s.toList := by
      rw [same,List.takeWhile_append_dropWhile]
    rw [trimSuffix_append whole]
    constructor
    · intro eq
      have length := congrArg List.length whole
      rw [← String.toList_inj,String.toList_ofList] at eq
      rw [eq,starts,List.length_append,List.length_cons] at length
      omega
    · rw [count,String.toList_ofList,List.count_eq_zero]
      intro member
      simpa using List.mem_takeWhile_imp member

/-- The first part of a split is empty when a separator comes first, and a later one is
when two stand together, one at the end counted. -/
theorem splitOn_parts [DecidableEq α] (a : α) (l : List α) : ∃ first later, l.splitOn a = first :: later ∧
    (first = [] ↔ [a] <+: l ++ [a]) ∧ ([] ∈ later ↔ [a,a] <:+: l ++ [a]) := by
  induction l with
  | nil => exact ⟨[],[],rfl,by simp,by simp [List.infix_cons_iff]⟩
  | cons x xs ih =>
    obtain ⟨first,later,parts,front,inside⟩ := ih
    rw [List.splitOn_cons_eq_if_modifyHead,parts]
    by_cases here : x = a
    · subst here
      refine ⟨[],first :: later,by simp,by simp,?_⟩
      rw [List.cons_append,List.infix_cons_iff,List.cons_prefix_cons,List.mem_cons,← front,← inside]
      simp [eq_comm]
    · refine ⟨x :: first,later,by simp [here],by simp [Ne.symm here],?_⟩
      rw [List.cons_append,List.infix_cons_iff,List.cons_prefix_cons,inside]
      simp [Ne.symm here]

/-- Parts are empty where two separators stand together, with one on each side counted. -/
theorem empty_mem_split (sep : Char) (s : String) :
    "" ∈ split sep s ↔ [sep,sep] <:+: sep :: (s.toList ++ [sep]) := by
  obtain ⟨first,later,parts,front,inside⟩ := splitOn_parts sep s.toList
  have shown : "" ∈ split sep s ↔ [] ∈ s.toList.splitOn sep := by
    simp [split,← String.toList_inj]
  rw [shown,parts,List.mem_cons,List.infix_cons_iff,List.cons_prefix_cons,← front,← inside]
  simp [eq_comm]

/-- A text without the separator is left whole; otherwise the cut is at the first one. -/
theorem cut_cases (sep : Char) (s : String) : sep ∉ s.toList ∧ cut sep s = (s,"",false) ∨
    ∃ front rest, s.toList = front ++ sep :: rest ∧ sep ∉ front ∧
      cut sep s = (String.ofList front,String.ofList rest,true) := by
  unfold cut
  cases found : s.toList.idxOf? sep with
  | none => exact .inl ⟨by simpa using found,rfl⟩
  | some i =>
    obtain ⟨inside,here,earlier⟩ := List.idxOf?_eq_some_iff.mp found
    refine .inr ⟨s.toList.take i,s.toList.drop (i + 1),?_,?_,rfl⟩
    · rw [← here,← List.drop_eq_getElem_cons inside,List.take_append_drop]
    · intro member
      obtain ⟨k,before,at_k⟩ := List.mem_take_iff_getElem.mp member
      exact earlier k (by omega) at_k

theorem sep_prefix_iff (free : sep ∉ front) (rest : List Char) : [sep] <+: front ++ sep :: rest ↔ front = [] := by
  cases front with
  | nil => simp
  | cons c front =>
    have ne : sep ≠ c := List.ne_of_not_mem_cons free
    simp [List.cons_prefix_cons,ne]

theorem cut_eq_empty (sep : Char) (s : String) : (cut sep s).1 = "" ↔ s = "" ∨ [sep] <+: s.toList := by
  rcases cut_cases sep s with ⟨absent,done⟩ | ⟨front,rest,text,free,done⟩
  · rw [done]
    refine ⟨.inl,?_⟩
    rintro (none | front)
    · exact none
    · exact absurd (front.subset List.mem_cons_self) absent
  · have some : s ≠ "" := by
      rintro rfl
      simp at text
    rw [done,text,sep_prefix_iff free,← String.toList_inj,String.toList_ofList]
    simp [some]

/-- The second of at most three parts. -/
theorem splitN_second (parts : splitN sep 3 s = first :: second :: rest) :
    second = (cut sep (cut sep s).2.1).1 := by
  simp only [splitN] at parts
  split at parts
  next before after found =>
    rw [found]
    dsimp only
    split at parts
    next inner =>
      rw [inner]
      exact ((List.cons.inj (List.cons.inj parts).2).1).symm
    next inner =>
      rw [inner]
      exact ((List.cons.inj (List.cons.inj parts).2).1).symm
  next => simp at parts

theorem split_ne_nil (sep : Char) (s : String) : split sep s ≠ [] := by
  simp [split,List.splitOn_ne_nil]

/-- A text lower-cases to a single character that no lower-casing concerns only from it. -/
theorem toLower_singleton {lower : Char → Char} (unicode : UnicodeLower lower) (narrow : d.toNat < 128)
    (other : d.isLower = false) (fixed : d.toLower = d) :
    (toLower lower s).toList = [d] ↔ s.toList = [d] := by
  have same := unicode.eq_iff narrow other fixed
  rw [toList_toLower]
  constructor
  · intro lowered
    obtain ⟨c,whole,eq⟩ := List.map_eq_singleton_iff.mp lowered
    rw [whole,(same c).mp eq]
  · intro whole
    rw [whole]
    exact List.map_eq_singleton_iff.mpr ⟨d,rfl,(same d).mpr rfl⟩

/-- A single character stands before the first separator when it is all there is, or is
followed by one. -/
theorem cut_singleton (ne : d ≠ sep) :
    (cut sep s).1.toList = [d] ↔ s.toList = [d] ∨ [d,sep] <+: s.toList := by
  rcases cut_cases sep s with ⟨absent,done⟩ | ⟨front,rest,text,free,done⟩
  · rw [done]
    refine ⟨.inl,?_⟩
    rintro (whole | front)
    · exact whole
    · exact absurd (front.subset (by simp)) absent
  · rw [done,text,String.toList_ofList]
    cases front with
    | nil => simp [ne,ne.symm]
    | cons c front =>
      have later : sep ∉ front := fun member => free (List.mem_cons_of_mem _ member)
      rw [List.cons_append,List.cons_prefix_cons,sep_prefix_iff later]
      simp [eq_comm]

end Strings

namespace Utf8

def continuation (b : UInt8) : Bool := 0x80 ≤ b && b ≤ 0xBF

/-- The rune at the front of some bytes and its width. A byte that starts no rune stands
as U+FFFD by itself. -/
def decodeRune (b : UInt8) (rest : List UInt8) : Char × Nat :=
  let bits (n : Nat) (c : UInt8) : Nat := c.toNat % 2 ^ n
  let invalid := (Char.ofNat 0xFFFD,1)
  if b < 0x80 then (Char.ofNat b.toNat,1)
  else match rest with
  | [] => invalid
  | c :: rest =>
    if 0xC2 ≤ b && b ≤ 0xDF then
      if continuation c then (Char.ofNat (bits 5 b * 64 + bits 6 c),2) else invalid
    else match rest with
    | [] => invalid
    | d :: rest =>
      if 0xE0 ≤ b && b ≤ 0xEF then
        if continuation c && continuation d && !(b == 0xE0 && c < 0xA0) && !(b == 0xED && 0x9F < c) then
          (Char.ofNat ((bits 4 b * 64 + bits 6 c) * 64 + bits 6 d),3)
        else invalid
      else match rest with
      | [] => invalid
      | e :: _ =>
        if 0xF0 ≤ b && b ≤ 0xF4 && continuation c && continuation d && continuation e &&
            !(b == 0xF0 && c < 0x90) && !(b == 0xF4 && 0x8F < c) then
          (Char.ofNat (((bits 3 b * 64 + bits 6 c) * 64 + bits 6 d) * 64 + bits 6 e),4)
        else invalid

/-- The runes of some bytes, of which the first `skip` belong to a rune already read. -/
def runes : Nat → List UInt8 → List Char
  | _, [] => []
  | skip + 1, _ :: rest => runes skip rest
  | 0, b :: rest =>
    let (c,width) := decodeRune b rest
    c :: runes (width - 1) rest

def string (bytes : List UInt8) : String := String.ofList (runes 0 bytes)

example : string [0x52,0xC3,0xA9,0xFF,0xE2,0x82,0xAC,0xED,0xA0,0x80] =
    String.ofList ['R','é','�','€','�','�','�'] := by decide +kernel

end Utf8

namespace Bufio

def maxTokenSize : Nat := 65536

def newline : UInt8 := 10

def carriageReturn : UInt8 := 13

def dropCR (line : List UInt8) : List UInt8 :=
  if line.getLast? = some carriageReturn then line.dropLast else line

/-- The lines of `bufio.ScanLines`, before they lose a final carriage return: nothing
follows a final newline. -/
def rawLines (data : List UInt8) : List (List UInt8) :=
  let lines := data.splitOn newline
  if lines.getLast? = some [] then lines.dropLast else lines

/-- Every line finds room in the buffer of a `Scanner`, with the byte that ends it. -/
def Fits (data : List UInt8) : Prop := ∀ line ∈ rawLines data, line.length < maxTokenSize

instance decidableFits (data : List UInt8) : Decidable (Fits data) :=
  inferInstanceAs (Decidable (∀ line ∈ rawLines data, line.length < maxTokenSize))

/-- What a `Scanner` yields over a reader that hands out `data` and ends with `readErr`,
`none` for the end of the file: the lines up to the first that is too long, and its
error. -/
def scan (data : List UInt8) (readErr : Option String) : List String × Option String :=
  let lines := rawLines data
  let fitting := lines.takeWhile fun line => line.length < maxTokenSize
  (fitting.map fun line => Utf8.string (dropCR line),
    if fitting.length = lines.length then readErr else some "bufio.Scanner: token too long")

def lines (data : List UInt8) : List String := (rawLines data).map fun line => Utf8.string (dropCR line)

theorem scan_of_fits (fits : Fits data) (readErr : Option String) : scan data readErr = (lines data,readErr) := by
  have all : (rawLines data).takeWhile (fun line => decide (line.length < maxTokenSize)) = rawLines data := by
    rw [List.takeWhile_eq_self_iff]
    intro line member
    exact decide_eq_true (fits line member)
  simp only [scan,lines,all,if_true]

/-- A scanner that reports no error has handed out every line. -/
theorem scan_complete (data : List UInt8) (readErr : Option String) :
    (scan data readErr).2 = none ↔ Fits data ∧ readErr = none := by
  constructor
  · intro complete
    simp only [scan] at complete
    split at complete
    next all =>
      refine ⟨fun line member => ?_,complete⟩
      have whole := (List.takeWhile_prefix _).eq_of_length all
      exact of_decide_eq_true (List.takeWhile_eq_self_iff.mp whole line member)
    next => cases complete
  · rintro ⟨fits,rfl⟩
    rw [scan_of_fits fits]

theorem rawLines_terminated (front rest : List UInt8) :
    rawLines (front ++ newline :: rest) = front.splitOn newline ++ rawLines rest := by
  have some : rest.splitOn newline ≠ [] := List.splitOn_ne_nil newline rest
  have last : (front.splitOn newline ++ rest.splitOn newline).getLast? = (rest.splitOn newline).getLast? := by
    rw [List.getLast?_append,List.getLast?_eq_some_getLast some,Option.some_or]
  unfold rawLines
  dsimp only
  rw [List.splitOn_append_cons_self,last]
  split
  · rw [List.dropLast_append_of_ne_nil some]
  · rfl

/-- A place between two lines: the text before it is empty or ends a line. -/
def AtLine (front : List UInt8) : Prop := front = [] ∨ ∃ lines, front = lines ++ [newline]

theorem rawLines_append (place : AtLine front) (rest : List UInt8) :
    rawLines (front ++ rest) = rawLines front ++ rawLines rest := by
  rcases place with rfl | ⟨lines,rfl⟩
  · rfl
  · have none : rawLines [] = [] := rfl
    rw [List.append_assoc,List.singleton_append,rawLines_terminated,rawLines_terminated,none,List.append_nil]

theorem rawLines_line (single : newline ∉ line) (rest : List UInt8) :
    rawLines (line ++ newline :: rest) = line :: rawLines rest := by
  rw [rawLines_terminated,List.splitOn_eq_singleton single,List.singleton_append]

end Bufio
