import Mathlib.Data.List.Basic
import Mathlib.Data.List.TakeWhile

/-! IP addresses and ranges as the `net` package reads them. An address is a list of
bytes, 16 of them when it comes out of `ParseIP`. -/
namespace Centauri.Net

/-- The fields of a dotted address. `digLen` counts the digits of the field being read, so
it is 0 at the start and after a dot. -/
def parseIPv4Fields (val digLen : Nat) (fields : List UInt8) : List Char → Option (List UInt8)
  | [] => if fields.length < 3 then none else some (fields ++ [val.toUInt8])
  | c :: rest =>
    if c.isDigit then
      if digLen == 1 && val == 0 then none
      else
        let val := val * 10 + (c.toNat - '0'.toNat)
        if val > 255 then none else parseIPv4Fields val (digLen + 1) fields rest
    else if c == '.' then
      if digLen == 0 || rest.isEmpty then none
      else if fields.length == 3 then none
      else parseIPv4Fields 0 0 (fields ++ [val.toUInt8]) rest
    else none

def isHex (c : Char) : Bool := c.isDigit || ('a' ≤ c && c ≤ 'f') || ('A' ≤ c && c ≤ 'F')

def hexValue (c : Char) : Nat :=
  if c.isDigit then c.toNat - '0'.toNat
  else if 'a' ≤ c && c ≤ 'f' then c.toNat - 'a'.toNat + 10
  else c.toNat - 'A'.toNat + 10

/-- The loop over the groups of an IPv6 address, with room for `n` more. It returns the
bytes read, where among them the ellipsis stood, and what is left of the text. -/
def parseGroups : Nat → List UInt8 → Option Nat → List Char →
    Option (List UInt8 × Option Nat × List Char)
  | 0, ip, ellipsis, s => some (ip,ellipsis,s)
  | n + 1, ip, ellipsis, s =>
    let digits := s.takeWhile isHex
    let acc := digits.foldl (fun acc c => acc * 16 + hexValue c) 0
    let grown := ip ++ [(acc / 256).toUInt8,(acc % 256).toUInt8]
    if digits.length > 4 || digits.isEmpty then none
    else
      match s.drop digits.length with
      | [] => some (grown,ellipsis,[])
      | '.' :: _ =>
        if ellipsis.isNone && ip.length != 12 then none
        else if ip.length + 4 > 16 then none
        else (parseIPv4Fields 0 0 [] s).map fun fields => (ip ++ fields,ellipsis,[])
      | [':'] => none
      | ':' :: ':' :: rest =>
        if ellipsis.isSome then none
        else if rest.isEmpty then some (grown,some grown.length,[])
        else parseGroups n grown (some grown.length) rest
      | ':' :: rest => parseGroups n grown ellipsis rest
      | _ => none

def expandEllipsis : List UInt8 × Option Nat × List Char → Option (List UInt8)
  | (_,_,_ :: _) => none
  | (ip,none,[]) => if ip.length < 16 then none else some ip
  | (ip,some ellipsis,[]) =>
    if ip.length < 16 then
      some (ip.take ellipsis ++ List.replicate (16 - ip.length) 0 ++ ip.drop ellipsis)
    else none

/-- An address with a zone is none for `ParseIP`. -/
def parseIPv6 (s : List Char) : Option (List UInt8) :=
  if '%' ∈ s then none
  else
    match s with
    | [':',':'] => some (List.replicate 16 0)
    | ':' :: ':' :: rest => (parseGroups 8 [] (some 0) rest).bind expandEllipsis
    | _ => (parseGroups 8 [] none s).bind expandEllipsis

def parseIP (s : String) : Option (List UInt8) :=
  match s.toList.find? fun c => c == '.' || c == ':' || c == '%' with
  | some '.' => (parseIPv4Fields 0 0 [] s.toList).map (List.replicate 10 0 ++ [0xff,0xff] ++ ·)
  | some ':' => parseIPv6 s.toList
  | _ => none

def isAddressChar (c : Char) : Bool := isHex c || c == '.' || c == ':'

theorem parseIPv4Fields_chars (parsed : parseIPv4Fields val digLen fields s = some ip) :
    ∀ c ∈ s, isAddressChar c = true := by
  induction s generalizing val digLen fields with
  | nil => simp
  | cons first rest ih =>
    simp only [parseIPv4Fields] at parsed
    rw [List.forall_mem_cons]
    split at parsed
    next digit =>
      split at parsed
      · cases parsed
      · split at parsed
        · cases parsed
        · exact ⟨by simp [isAddressChar,isHex,digit],ih parsed⟩
    next =>
      split at parsed
      next dot =>
        split at parsed
        · cases parsed
        · split at parsed
          · cases parsed
          · exact ⟨by simp [isAddressChar,dot],ih parsed⟩
      next => cases parsed

theorem parseGroups_chars (parsed : parseGroups n ip ellipsis s = some (bytes,place,left)) :
    ∀ c ∈ s, isAddressChar c = true ∨ c ∈ left := by
  induction n generalizing ip ellipsis s with
  | zero =>
    simp only [parseGroups,Option.some.injEq,Prod.mk.injEq] at parsed
    exact fun c member => .inr (parsed.2.2 ▸ member)
  | succ n ih =>
    have digits : ∀ c ∈ s.takeWhile isHex, isAddressChar c = true ∨ c ∈ left := by
      intro c member
      left
      simp [isAddressChar,List.mem_takeWhile_imp member]
    have tail : s.drop (s.takeWhile isHex).length = s.dropWhile isHex := by
      nth_rewrite 2 [← List.takeWhile_append_dropWhile (p := isHex) (l := s)]
      exact List.drop_left
    have colon : isAddressChar ':' = true := by decide
    simp only [parseGroups] at parsed
    split at parsed
    · cases parsed
    · have after : ∀ c ∈ s.dropWhile isHex, isAddressChar c = true ∨ c ∈ left := by
        rw [tail] at parsed
        split at parsed
        next here => simp [here]
        next =>
          split at parsed
          · cases parsed
          · split at parsed
            · cases parsed
            · obtain ⟨fields,dotted,_⟩ := Option.map_eq_some_iff.mp parsed
              intro c member
              exact .inl (parseIPv4Fields_chars dotted c ((List.dropWhile_sublist isHex).subset member))
        next => cases parsed
        next rest here =>
          rw [here]
          split at parsed
          · cases parsed
          · split at parsed
            next none =>
              have empty : rest = [] := by simpa using none
              simp [empty,colon]
            next => simpa [colon] using ih parsed
        next rest _ _ here =>
          rw [here]
          simpa [colon] using ih parsed
        next => cases parsed
      intro c member
      rw [← List.takeWhile_append_dropWhile (p := isHex) (l := s),List.mem_append] at member
      exact member.elim (digits c) (after c)

theorem expandEllipsis_left (parsed : expandEllipsis (bytes,place,left) = some ip) : left = [] := by
  cases left with
  | nil => rfl
  | cons => cases place <;> simp [expandEllipsis] at parsed

theorem parseGroups_expanded (parsed : (parseGroups n ip ellipsis s).bind expandEllipsis = some bytes) :
    ∀ c ∈ s, isAddressChar c = true := by
  obtain ⟨⟨grown,place,left⟩,groups,expanded⟩ := Option.bind_eq_some_iff.mp parsed
  intro c member
  have chars := parseGroups_chars groups c member
  rw [expandEllipsis_left expanded] at chars
  exact chars.resolve_right (by simp)

/-- An address is not empty and holds neither separators nor blanks. -/
theorem parseIP_chars (parsed : parseIP s = some ip) : s ≠ "" ∧ ∀ c ∈ s.toList, isAddressChar c = true := by
  have colon : isAddressChar ':' = true := by decide
  unfold parseIP at parsed
  constructor
  · rintro rfl
    simp at parsed
  · split at parsed
    · obtain ⟨fields,dotted,_⟩ := Option.map_eq_some_iff.mp parsed
      exact parseIPv4Fields_chars dotted
    · unfold parseIPv6 at parsed
      split at parsed
      · cases parsed
      · split at parsed
        next here => simp [here,colon]
        next rest _ here =>
          rw [here]
          simpa [colon] using parseGroups_expanded parsed
        next => exact parseGroups_expanded parsed
    · cases parsed

def to4 (ip : List UInt8) : Option (List UInt8) :=
  if ip.length = 4 then some ip
  else if ip.length = 16 ∧ ip.take 12 = List.replicate 10 0 ++ [0xff,0xff] then some (ip.drop 12)
  else none

structure IPNet where
  ip : List UInt8
  mask : List UInt8
  deriving DecidableEq, Repr

/-- `none` when the lengths of address and mask do not fit together. -/
def networkNumberAndMask (n : IPNet) : Option (List UInt8 × List UInt8) :=
  match to4 n.ip with
  | some ip =>
    if n.mask.length = 4 then some (ip,n.mask)
    else if n.mask.length = 16 then some (ip,n.mask.drop 12)
    else none
  | none => if n.ip.length = 16 ∧ n.mask.length = 16 then some (n.ip,n.mask) else none

def IPNet.contains (n : IPNet) (ip : List UInt8) : Bool :=
  match networkNumberAndMask n with
  | none => false
  | some (number,mask) =>
    let ip := (to4 ip).getD ip
    ip.length == number.length &&
      (number.zip (mask.zip ip)).all fun (n,m,i) => n &&& m == i &&& m

/-- The range 10.0.0.0/8 holds its own addresses, mapped into IPv6 or not, and no others. -/
example : ["10.1.2.3","::ffff:10.1.2.3","192.0.2.1","2001:db8::1","010.1.2.3","10.1.2"].map
    (fun s => (parseIP s).map (IPNet.contains ⟨[10,0,0,0],[255,0,0,0]⟩)) =
    [some true,some true,some false,some false,none,none] := by decide +kernel

end Centauri.Net
