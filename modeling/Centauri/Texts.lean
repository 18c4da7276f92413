import Centauri.Strings

/-! Texts of printable ASCII as Go's standard library reads them back: words between spaces, and
lines of words. -/

/-- Printable ASCII, without the space. -/
def Char.Graphic (c : Char) : Prop := 33 ≤ c.toNat ∧ c.toNat ≤ 126

instance (c : Char) : Decidable c.Graphic := inferInstanceAs (Decidable (_ ∧ _))

namespace Strings

def Word (s : String) : Prop := s ≠ "" ∧ ∀ c ∈ s.toList, c.Graphic

/-- Words and spaces, of which none ends the text. -/
def Phrase (s : String) : Prop :=
  s ≠ "" ∧ (∀ c ∈ s.toList, c = ' ' ∨ c.Graphic) ∧ s.toList.getLast? ≠ some ' '

-- only the characters of the text are looked at
instance (s : String) : Decidable (Word s) :=
  @instDecidableAnd _ _ instDecidableNot (List.decidableBAll _ _)

instance (s : String) : Decidable (Phrase s) :=
  @instDecidableAnd _ _ instDecidableNot (@instDecidableAnd _ _ (List.decidableBAll _ _) instDecidableNot)

theorem isSpace_graphic (graphic : c.Graphic) : isSpace c = false := by
  obtain ⟨low,high⟩ := graphic
  simp only [isSpace]
  simp
  omega

theorem Word.spaceless (word : Word s) : ' ' ∉ s.toList := by
  intro member
  have graphic := word.2 ' ' member
  exact absurd graphic (by decide)

theorem Word.phrase (word : Word s) : Phrase s :=
  ⟨word.1,fun c member => .inr (word.2 c member),fun last => word.spaceless (List.mem_of_getLast? last)⟩

theorem Word.first (word : Word s) : ∃ c rest, s.toList = c :: rest ∧ c.Graphic := by
  cases listed : s.toList with
  | nil => exact absurd (String.toList_eq_nil_iff.mp listed) word.1
  | cons c rest => exact ⟨c,rest,rfl,word.2 c (by simp [listed])⟩

theorem Phrase.last (phrase : Phrase s) : ∃ front c, s.toList = front ++ [c] ∧ c.Graphic := by
  have some : s.toList ≠ [] := fun none => phrase.1 (String.toList_eq_nil_iff.mp none)
  refine ⟨s.toList.dropLast,s.toList.getLast some,(List.dropLast_concat_getLast some).symm,?_⟩
  refine (phrase.2.1 _ (List.getLast_mem some)).resolve_left fun space => phrase.2.2 ?_
  rw [List.getLast?_eq_some_getLast some,space]

def spaced (first second : String) : String := first ++ " " ++ second

@[simp] theorem toList_spaced (first second : String) :
    (spaced first second).toList = first.toList ++ ' ' :: second.toList := by
  simp [spaced]

theorem Phrase.spaced (first : Word s) (second : Phrase t) : Phrase (spaced s t) := by
  refine ⟨?_,?_,?_⟩
  · intro none
    simpa using congrArg String.toList none
  · intro c member
    simp only [toList_spaced,List.mem_append,List.mem_cons] at member
    rcases member with inside | rfl | inside
    · exact .inr (first.2 c inside)
    · exact .inl rfl
    · exact second.2.1 c inside
  · obtain ⟨front,c,ends,graphic⟩ := second.last
    rw [toList_spaced,ends]
    simp only [List.getLast?_append,List.getLast?_cons]
    intro same
    have space : c = ' ' := by simpa using same
    exact absurd (space ▸ graphic) (by decide)

/-- A text that neither starts nor ends with a space is left alone. -/
theorem trimSpace_eq (head : s.toList = c :: rest) (starts : isSpace c = false)
    (last : s.toList = front ++ [d]) (ends : isSpace d = false) : trimSpace s = s := by
  rw [trimSpace,head,List.dropWhile_cons_of_neg (by simp [starts]),← head,last,List.reverse_append,
    List.reverse_singleton,List.singleton_append,List.dropWhile_cons_of_neg (by simp [ends]),List.reverse_cons,
    List.reverse_reverse,← last,String.ofList_toList]

theorem trimSpace_word (word : Word s) : trimSpace s = s := by
  obtain ⟨c,rest,head,starts⟩ := word.first
  obtain ⟨front,d,last,ends⟩ := word.phrase.last
  exact trimSpace_eq head (isSpace_graphic starts) last (isSpace_graphic ends)

theorem trimSpace_spaced (first : Word s) (second : Phrase t) : trimSpace (spaced s t) = spaced s t := by
  obtain ⟨c,rest,head,starts⟩ := first.first
  obtain ⟨front,d,last,ends⟩ := (Phrase.spaced first second).last
  have whole : (spaced s t).toList = c :: (rest ++ ' ' :: t.toList) := by
    rw [toList_spaced,head,List.cons_append]
  exact trimSpace_eq whole (isSpace_graphic starts) last (isSpace_graphic ends)

theorem cut_absent (absent : sep ∉ s.toList) : cut sep s = (s,"",false) := by
  rcases cut_cases sep s with ⟨_,done⟩ | ⟨front,rest,text,_,_⟩
  · exact done
  · exact absurd (by simp [text]) absent

/-- The cut is at the first separator. -/
theorem cut_eq (text : s.toList = front.toList ++ sep :: rest.toList) (free : sep ∉ front.toList) :
    cut sep s = (front,rest,true) := by
  rcases cut_cases sep s with ⟨absent,_⟩ | ⟨front',rest',text',free',done⟩
  · exact absurd (by simp [text]) absent
  · have pass {l : List Char} (free : sep ∉ l) (r : List Char) :
        (l ++ sep :: r).takeWhile (· != sep) = l := by
      have before : ∀ c ∈ l, (c != sep) = true := by
        intro c member
        rw [bne_iff_ne]
        rintro rfl
        exact free member
      rw [List.takeWhile_append_of_pos before]
      simp
    have fronts : front' = front.toList := by
      rw [← pass free' rest',← text',text,pass free]
    rw [text,fronts] at text'
    have rests := (List.cons.inj (List.append_cancel_left text')).2
    rw [done,fronts,← rests,String.ofList_toList,String.ofList_toList]

theorem cut_spaced (first : Word s) (t : String) : cut ' ' (spaced s t) = (s,t,true) :=
  cut_eq (toList_spaced s t) first.spaceless

theorem splitN_two (first : Word s) (second : Word t) : splitN ' ' 3 (spaced s t) = [s,t] := by
  simp [splitN,cut_spaced first,cut_absent second.spaceless]

theorem splitN_three (first : Word s) (second : Word t) (u : String) :
    splitN ' ' 3 (spaced s (spaced t u)) = [s,t,u] := by
  simp [splitN,cut_spaced first,cut_spaced second]

theorem fields_spaced (first : Word s) (second : Word t) : fields (spaced s t) = [s,t] := by
  have solid {s : String} (word : Word s) : ∀ c ∈ s.toList, isSpace c = false := fun c member =>
    isSpace_graphic (word.2 c member)
  rw [fields,toList_spaced,List.splitOnP_append_cons_of_forall_mem (solid first) _ (by decide),
    List.splitOnP_eq_singleton (solid second)]
  simp [first.1,second.1]

def words (parts : List String) : String := " ".intercalate parts

theorem split_words (some : parts ≠ []) (each : ∀ part ∈ parts, Word part) : split ' ' (words parts) = parts := by
  have free : ∀ l ∈ parts.map String.toList, ' ' ∉ l := by
    intro l member
    obtain ⟨part,inside,rfl⟩ := List.mem_map.mp member
    exact (each part inside).spaceless
  have chars : (words parts).toList = [' '].intercalate (parts.map String.toList) := by
    rw [words,String.toList_intercalate]
    rfl
  rw [split,chars,List.splitOn_intercalate ' ' free (by simpa using some),List.map_map]
  exact List.map_id'' (fun part => String.ofList_toList) parts

theorem words_cons (part second : String) (others : List String) :
    words (part :: second :: others) = spaced part (words (second :: others)) := by
  rw [← String.toList_inj,toList_spaced,words,words,String.toList_intercalate,String.toList_intercalate]
  simp [List.intercalate]

theorem words_phrase (some : parts ≠ []) (each : ∀ part ∈ parts, Word part) : Phrase (words parts) := by
  induction parts with
  | nil => exact absurd rfl some
  | cons part rest ih =>
    obtain ⟨word,rest'⟩ := List.forall_mem_cons.mp each
    cases rest with
    | nil => exact word.phrase
    | cons second others =>
      rw [words_cons]
      exact Phrase.spaced word (ih (by simp) rest')

end Strings

namespace Utf8

def ascii (s : String) : List UInt8 := s.toList.map fun c => UInt8.ofNat c.toNat

theorem runes_ascii {text : List Char} (narrow : ∀ c ∈ text, c.toNat < 128) :
    runes 0 (text.map fun c => UInt8.ofNat c.toNat) = text := by
  induction text with
  | nil => rfl
  | cons c rest ih =>
    obtain ⟨small,narrow⟩ := List.forall_mem_cons.mp narrow
    have byte : (UInt8.ofNat c.toNat).toNat = c.toNat := UInt8.toNat_ofNat_of_lt' (show c.toNat < 256 by omega)
    have first : UInt8.ofNat c.toNat < 0x80 := by
      rw [UInt8.lt_iff_toNat_lt,byte]
      exact small
    simp [runes,decodeRune,first,byte,ih narrow]

theorem string_ascii (narrow : ∀ c ∈ s.toList, c.toNat < 128) : string (ascii s) = s := by
  rw [string,ascii,runes_ascii narrow,String.ofList_toList]

end Utf8

namespace Bufio

def written (lines : List String) : List UInt8 := lines.flatMap fun line => Utf8.ascii line ++ [newline]

variable {lines : List String}

/-- The bytes of a line that has nothing but spaces and what is printed. -/
theorem mem_ascii (printable : ∀ c ∈ line.toList, c = ' ' ∨ c.Graphic) :
    ∀ b ∈ Utf8.ascii line, 32 ≤ b.toNat := by
  intro b member
  obtain ⟨c,inside,rfl⟩ := List.mem_map.mp member
  have bounds : 32 ≤ c.toNat ∧ c.toNat ≤ 126 := by
    rcases printable c inside with rfl | ⟨low,high⟩
    · decide
    · omega
  rw [UInt8.toNat_ofNat_of_lt' (show c.toNat < 256 by omega)]
  exact bounds.1

theorem rawLines_written (printable : ∀ line ∈ lines, ∀ c ∈ line.toList, c = ' ' ∨ c.Graphic) :
    rawLines (written lines) = lines.map Utf8.ascii := by
  induction lines with
  | nil => rfl
  | cons line rest ih =>
    obtain ⟨here,later⟩ := List.forall_mem_cons.mp printable
    have single : newline ∉ Utf8.ascii line := fun member => absurd (mem_ascii here _ member) (by decide)
    have text : written (line :: rest) = Utf8.ascii line ++ newline :: written rest := by
      simp [written]
    rw [text,rawLines_line single,ih later,List.map_cons]

theorem lines_written (printable : ∀ line ∈ lines, ∀ c ∈ line.toList, c = ' ' ∨ c.Graphic) :
    Bufio.lines (written lines) = lines := by
  rw [Bufio.lines,rawLines_written printable,List.map_map]
  refine (List.map_congr_left fun line member => ?_).trans (List.map_id _)
  have kept : dropCR (Utf8.ascii line) = Utf8.ascii line := by
    refine if_neg fun last => ?_
    exact absurd (mem_ascii (printable line member) _ (List.mem_of_getLast? last)) (by decide)
  have narrow : ∀ c ∈ line.toList, c.toNat < 128 := by
    intro c inside
    rcases printable line member c inside with rfl | ⟨_,high⟩
    · decide
    · omega
  rw [Function.comp_apply,kept,Utf8.string_ascii narrow]
  rfl

theorem fits_written (printable : ∀ line ∈ lines, ∀ c ∈ line.toList, c = ' ' ∨ c.Graphic)
    (short : ∀ line ∈ lines, line.toList.length < maxTokenSize) : Fits (written lines) := by
  intro bytes member
  rw [rawLines_written printable] at member
  obtain ⟨line,inside,rfl⟩ := List.mem_map.mp member
  simpa [Utf8.ascii] using short line inside

end Bufio
