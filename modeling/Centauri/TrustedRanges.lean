import Centauri.Decorators
import Centauri.LeadingBits
import Centauri.Strings

/-! Which downstreams are trusted. The option's text is a list of ranges, each an address
and a number of leading bits; the proxy keeps them as masked addresses and compares under
the mask, with IPv4 addresses in a form of their own. -/
namespace Centauri

namespace Net

open LeadingBits

def v4InV6Prefix : List UInt8 := List.replicate 10 0 ++ [0xff,0xff]

/-- `netip.ParseAddr` on addresses without a zone, as 16 bytes, and the `BitLen` of the result. -/
def parseAddr (s : String) : Option (List UInt8 × Nat) :=
  match s.toList.find? fun c => c == '.' || c == ':' || c == '%' with
  | some '.' => (parseIPv4Fields 0 0 [] s.toList).map fun fields => (v4InV6Prefix ++ fields,32)
  | some ':' => (parseIPv6 s.toList).map (·,128)
  | _ => none

/-- The loop of `dtoi`, with the number so far; `none` once it is too big. -/
def dtoiFrom (n : Nat) : List Char → Option (Nat × List Char)
  | [] => some (n,[])
  | c :: rest =>
    if c.isDigit then
      let n := n * 10 + (c.toNat - '0'.toNat)
      if n ≥ 0xFFFFFF then none else dtoiFrom n rest
    else some (n,c :: rest)

def dtoi (s : String) : Option Nat :=
  if s = "" then none
  else
    match dtoiFrom 0 s.toList with
    | some (n,[]) => some n
    | _ => none

def cidrMask : Nat → Nat → List UInt8
  | _, 0 => []
  | n, l + 1 =>
    if n ≥ 8 then 0xff :: cidrMask (n - 8) l
    else ~~~((0xff : UInt8) >>> n.toUInt8) :: cidrMask 0 l

/-- `IP.Mask`, which is nil when the lengths do not fit. -/
def maskIP (ip mask : List UInt8) : List UInt8 :=
  let mask := if mask.length = 16 ∧ ip.length = 4 ∧ (mask.take 12).all (· == 0xff) then mask.drop 12 else mask
  let ip := if mask.length = 4 ∧ ip.length = 16 ∧ ip.take 12 = v4InV6Prefix then ip.drop 12 else ip
  if ip.length ≠ mask.length then [] else List.zipWith (· &&& ·) ip mask

/-- What `ParseCIDR` reads: an address of 16 bytes, the bits of its family, and how many of
these a range fixes. -/
structure Cidr where
  address : List UInt8
  bitLen : Nat
  ones : Nat
  deriving DecidableEq, Repr

def readCIDR (s : String) : Option Cidr :=
  match Strings.cut '/' s with
  | (_,_,false) => none
  | (addr,mask,true) =>
    match parseAddr addr with
    | none => none
    | some (address,bitLen) =>
      match dtoi mask with
      | none => none
      | some n => if n > bitLen then none else some ⟨address,bitLen,n⟩

def Cidr.ipNet (c : Cidr) : IPNet :=
  ⟨maskIP c.address (cidrMask c.ones (c.bitLen / 8)),cidrMask c.ones (c.bitLen / 8)⟩

def parseCIDR (s : String) : Except String IPNet :=
  match readCIDR s with
  | none => .error ("invalid CIDR address: " ++ s)
  | some c => .ok c.ipNet

/-- The address and the range agree in the bits that the range fixes, counted in an IPv6
address. A range that leaves some of the IPv4 prefix open has no IPv4 address in it. -/
def Cidr.Covers (c : Cidr) (ip : List UInt8) : Prop :=
  (bits ip).take (128 - c.bitLen + c.ones) = (bits c.address).take (128 - c.bitLen + c.ones) ∧
    (128 - c.bitLen + c.ones < 96 → to4 ip = none)

instance (c : Cidr) (ip : List UInt8) : Decidable (c.Covers ip) :=
  inferInstanceAs (Decidable (_ ∧ _))

theorem cidrMask_eq (n l : Nat) : cidrMask n l = mask n l := by
  induction l generalizing n with
  | zero => rfl
  | succ l ih =>
    rw [cidrMask,mask,byteMask]
    split
    · rw [ih]
    · rw [ih,show n - 8 = 0 by omega]

theorem parseIPv4Fields_length (parsed : parseIPv4Fields val digLen fields s = some ip)
    (few : fields.length ≤ 3) : ip.length = 4 := by
  induction s generalizing val digLen fields with
  | nil =>
    simp only [parseIPv4Fields] at parsed
    split at parsed
    · cases parsed
    · cases parsed
      simp only [List.length_append,List.length_singleton]
      omega
  | cons c rest ih =>
    simp only [parseIPv4Fields] at parsed
    split at parsed
    · split at parsed
      · cases parsed
      · split at parsed
        · cases parsed
        · exact ih parsed few
    · split at parsed
      · split at parsed
        · cases parsed
        · split at parsed
          · cases parsed
          · next room =>
            refine ih parsed ?_
            simp only [beq_iff_eq] at room
            simp only [List.length_append,List.length_singleton]
            omega
      · cases parsed

theorem parseGroups_length (parsed : parseGroups n ip ellipsis s = some (bytes,place,left))
    (room : ip.length + 2 * n ≤ 16) : bytes.length ≤ 16 := by
  induction n generalizing ip ellipsis s with
  | zero =>
    simp only [parseGroups,Option.some.injEq,Prod.mk.injEq] at parsed
    rw [← parsed.1]
    exact room
  | succ n ih =>
    have grown : ∀ a b, (ip ++ [a,b]).length + 2 * n ≤ 16 := by
      intro a b
      simp only [List.length_append,List.length_cons,List.length_nil]
      omega
    simp only [parseGroups] at parsed
    split at parsed
    · cases parsed
    · split at parsed
      · cases parsed
        have := grown 0 0
        simp only [List.length_append,List.length_cons,List.length_nil] at this ⊢
        omega
      · split at parsed
        · cases parsed
        · split at parsed
          · cases parsed
          · next fits =>
            obtain ⟨fields,dotted,same⟩ := Option.map_eq_some_iff.mp parsed
            cases same
            have four := parseIPv4Fields_length dotted (by simp)
            rw [List.length_append,four]
            omega
      · cases parsed
      · split at parsed
        · cases parsed
        · split at parsed
          · cases parsed
            have := grown 0 0
            simp only [List.length_append,List.length_cons,List.length_nil] at this ⊢
            omega
          · exact ih parsed (grown _ _)
      · exact ih parsed (grown _ _)
      · cases parsed

theorem expanded_length (parsed : (parseGroups 8 [] ellipsis s).bind expandEllipsis = some ip) :
    ip.length = 16 := by
  obtain ⟨⟨bytes,place,left⟩,groups,expanded⟩ := Option.bind_eq_some_iff.mp parsed
  have bound := parseGroups_length groups (by simp)
  obtain rfl := expandEllipsis_left expanded
  cases place with
  | none =>
    simp only [expandEllipsis] at expanded
    split at expanded
    · cases expanded
    · cases expanded
      omega
  | some place =>
    simp only [expandEllipsis] at expanded
    split at expanded
    · cases expanded
      simp only [List.length_append,List.length_take,List.length_replicate,List.length_drop]
      omega
    · cases expanded

theorem parseIPv6_length (parsed : parseIPv6 s = some ip) : ip.length = 16 := by
  unfold parseIPv6 at parsed
  split at parsed
  · cases parsed
  · split at parsed
    · cases parsed
      rfl
    · exact expanded_length parsed
    · exact expanded_length parsed

/-- An address of 16 bytes; what is written as an IPv4 address has the prefix of these. -/
theorem parseAddr_spec (parsed : parseAddr s = some (address,bitLen)) :
    address.length = 16 ∧ (bitLen = 32 ∧ address.take 12 = v4InV6Prefix ∨ bitLen = 128) := by
  unfold parseAddr at parsed
  split at parsed
  · obtain ⟨fields,dotted,same⟩ := Option.map_eq_some_iff.mp parsed
    cases same
    have four := parseIPv4Fields_length dotted (by simp)
    exact ⟨by simp [v4InV6Prefix,four],.inl ⟨rfl,List.take_left' rfl⟩⟩
  · obtain ⟨ip,grouped,same⟩ := Option.map_eq_some_iff.mp parsed
    cases same
    exact ⟨parseIPv6_length grouped,.inr rfl⟩
  · cases parsed

theorem parseIP_length (parsed : parseIP s = some ip) : ip.length = 16 := by
  unfold parseIP at parsed
  split at parsed
  · obtain ⟨fields,dotted,rfl⟩ := Option.map_eq_some_iff.mp parsed
    simp [parseIPv4Fields_length dotted]
  · exact parseIPv6_length parsed
  · cases parsed

theorem readCIDR_spec (read : readCIDR s = some c) :
    c.address.length = 16 ∧ c.ones ≤ c.bitLen ∧
      (c.bitLen = 32 ∧ c.address.take 12 = v4InV6Prefix ∨ c.bitLen = 128) := by
  unfold readCIDR at read
  split at read
  · cases read
  · split at read
    · cases read
    · next parsed =>
      split at read
      · cases read
      · split at read
        · cases read
        · cases read
          obtain ⟨long,family⟩ := parseAddr_spec parsed
          exact ⟨long,Nat.le_of_not_gt (by assumption),family⟩

theorem to4_eq (long : ip.length = 16) :
    to4 ip = if ip.take 12 = v4InV6Prefix then some (ip.drop 12) else none := by
  rw [to4,if_neg (by omega)]
  by_cases mapped : ip.take 12 = v4InV6Prefix
  · rw [if_pos ⟨long,mapped⟩,if_pos mapped]
  · rw [if_neg fun both => mapped both.2,if_neg mapped]

theorem contains_iff {n : IPNet} (kept : networkNumberAndMask n =
      some (List.zipWith (· &&& ·) number (mask ones number.length),mask ones number.length)) (ip : List UInt8) :
    n.contains ip = true ↔ ((to4 ip).getD ip).length = number.length ∧
      (bits ((to4 ip).getD ip)).take ones = (bits number).take ones := by
  rw [IPNet.contains,kept]
  simp only [Bool.and_eq_true,beq_iff_eq,List.length_zipWith,length_mask,Nat.min_self]
  exact and_congr_right fun same => all_masked_iff number _ same ones

/-- A mask with fewer than 96 ones leaves no address the IPv4 prefix. -/
theorem masked_unmapped (few : n < 96) (lead : List UInt8) (long : lead.length = 12) :
    List.zipWith (· &&& ·) lead (mask n 12) ≠ v4InV6Prefix := by
  obtain ⟨front,last,rfl⟩ := List.eq_nil_or_concat lead |>.resolve_left (by rintro rfl; cases long)
  have short : front.length = 11 := by simpa using long
  rw [mask_add n 11 1,List.concat_eq_append,List.zipWith_append (by simp [short])]
  intro same
  have halves : List.zipWith (· &&& ·) front (mask n 11) ++ [last &&& byteMask (n - 88)] =
    (List.replicate 10 0 ++ [0xff]) ++ [0xff] := same
  have whole : last &&& byteMask (n - 88) = 0xff := by
    simpa using (List.append_inj' halves rfl).2
  have low := (eq_iff_bit _ _).mp whole 0 (by decide)
  have conj : bit (last &&& byteMask (n - 88)) 0 = (bit last 0 && bit (byteMask (n - 88)) 0) := by simp [bit]
  rw [conj,bit_byteMask _ _ (by decide),decide_eq_false (by omega),Bool.and_false] at low
  exact absurd low (by decide)

theorem exists_halves {ip : List UInt8} (long : ip.length = 16) :
    ∃ lead rest : List UInt8, ip = lead ++ rest ∧ lead.length = 12 ∧ rest.length = 4 :=
  ⟨ip.take 12,ip.drop 12,(List.take_append_drop 12 ip).symm,by simp [long],by simp [long]⟩

section Halves

variable {lead rest lead' rest' : List UInt8} (long : lead.length = 12) (short : rest.length = 4)
  (long' : lead'.length = 12) (short' : rest'.length = 4)

include long short

theorem to4_append : to4 (lead ++ rest) = if lead = v4InV6Prefix then some rest else none := by
  rw [to4_eq (by simp [long,short]),List.take_left' long,List.drop_left' long]

include short' in
/-- A range of IPv4 addresses. -/
theorem contains_v4 {n : IPNet} (kept : networkNumberAndMask n =
      some (List.zipWith (· &&& ·) rest' (mask ones 4),mask ones 4)) :
    n.contains (lead ++ rest) = true ↔ lead = v4InV6Prefix ∧ (bits rest).take ones = (bits rest').take ones := by
  rw [← short'] at kept
  rw [contains_iff kept,to4_append long short]
  by_cases mapped : lead = v4InV6Prefix
  · simp [mapped,short,short']
  · simp [mapped,long,short,short']

include long' short' in
/-- A range of other addresses. -/
theorem contains_v6 {n : IPNet} (kept : networkNumberAndMask n =
      some (List.zipWith (· &&& ·) (lead' ++ rest') (mask ones 16),mask ones 16)) :
    n.contains (lead ++ rest) = true ↔ lead ≠ v4InV6Prefix ∧
      (bits (lead ++ rest)).take ones = (bits (lead' ++ rest')).take ones := by
  have all : (lead' ++ rest').length = 16 := by simp [long',short']
  rw [← all] at kept
  rw [contains_iff kept,to4_append long short]
  by_cases mapped : lead = v4InV6Prefix
  · simp [mapped,short,all]
  · simp [mapped,long,short,all]

/-- How a range that is written as one of IPv4 addresses is kept. -/
theorem kept_v4 (prefixed : lead = v4InV6Prefix) :
    networkNumberAndMask (Cidr.ipNet ⟨lead ++ rest,32,ones⟩) =
      some (List.zipWith (· &&& ·) rest (mask ones 4),mask ones 4) := by
  have taken : (lead ++ rest).take 12 = v4InV6Prefix := by rw [List.take_left' long,prefixed]
  have masked : maskIP (lead ++ rest) (mask ones 4) = List.zipWith (· &&& ·) rest (mask ones 4) := by
    simp [maskIP,taken,long,short,List.drop_left' long]
  have four : (List.zipWith (· &&& ·) rest (mask ones 4)).length = 4 := by simp [short]
  simp [Cidr.ipNet,cidrMask_eq,masked,networkNumberAndMask,to4,four]

/-- How one that is written as a range of IPv6 addresses is kept, which may amount to the same. -/
theorem kept_v6 (ones : Nat) : networkNumberAndMask (Cidr.ipNet ⟨lead ++ rest,128,ones⟩) =
    if lead = v4InV6Prefix ∧ 96 ≤ ones then
      some (List.zipWith (· &&& ·) rest (mask (ones - 96) 4),mask (ones - 96) 4)
    else some (List.zipWith (· &&& ·) (lead ++ rest) (mask ones 16),mask ones 16) := by
  have halves : mask ones 16 = mask ones 12 ++ mask (ones - 96) 4 := mask_add ones 12 4
  have masked : maskIP (lead ++ rest) (mask ones 16) = List.zipWith (· &&& ·) (lead ++ rest) (mask ones 16) := by
    simp [maskIP,long,short]
  have number : List.zipWith (· &&& ·) (lead ++ rest) (mask ones 16) =
      List.zipWith (· &&& ·) lead (mask ones 12) ++ List.zipWith (· &&& ·) rest (mask (ones - 96) 4) := by
    rw [halves,List.zipWith_append (by simp [long])]
  have back : (mask ones 16).drop 12 = mask (ones - 96) 4 := by
    rw [halves,List.drop_left' (by simp)]
  have mapped : List.zipWith (· &&& ·) lead (mask ones 12) = v4InV6Prefix ↔ lead = v4InV6Prefix ∧ 96 ≤ ones := by
    by_cases many : 96 ≤ ones
    · have same := and_mask_full lead (show 8 * lead.length ≤ ones by omega)
      rw [long] at same
      simp [same,many]
    · have apart := masked_unmapped (Nat.lt_of_not_le many) lead long
      simp [many,apart]
  simp only [Cidr.ipNet,cidrMask_eq,show 128 / 8 = 16 from rfl,masked,networkNumberAndMask,length_mask,back]
  rw [number,to4_append (by simp [long]) (by simp [short])]
  by_cases both : lead = v4InV6Prefix ∧ 96 ≤ ones
  · rw [if_pos (mapped.mpr both),if_pos both]
    rfl
  · rw [if_neg (mapped.not.mpr both),if_neg both]
    simp [long,short]

end Halves

/-- Comparing under the mask is comparing the bits that the range fixes. -/
theorem Cidr.contains_iff {c : Cidr} (read : readCIDR s = some c) (full : ip.length = 16) :
    c.ipNet.contains ip = true ↔ c.Covers ip := by
  obtain ⟨address,bitLen,ones⟩ := c
  obtain ⟨full',within,family⟩ := readCIDR_spec read
  obtain ⟨lead,rest,rfl,long,short⟩ := exists_halves full
  obtain ⟨lead',rest',rfl,long',short'⟩ := exists_halves full'
  have beyond (n : Nat) : (bits (lead ++ rest)).take (96 + n) = (bits (lead' ++ rest')).take (96 + n) ↔
      lead = lead' ∧ (bits rest).take n = (bits rest').take n := by
    have split := take_bits_append_iff (long.trans long'.symm) rest rest' n
    rwa [long] at split
  have unmapped : to4 (lead ++ rest) = none ↔ lead ≠ v4InV6Prefix := by
    rw [to4_append long short]
    simp
  rw [Covers,unmapped]
  rcases family with ⟨rfl,mapped⟩ | rfl
  · have prefixed : lead' = v4InV6Prefix := by rwa [List.take_left' long'] at mapped
    rw [contains_v4 long short short' (kept_v4 long' short' prefixed)]
    rw [show 128 - 32 + ones = 96 + ones by omega,beyond,prefixed]
    simp
  · have kept := kept_v6 long' short' ones
    split at kept
    · next same =>
      obtain ⟨prefixed,many⟩ := same
      rw [contains_v4 long short short' kept]
      rw [show 128 - 128 + ones = 96 + (ones - 96) by omega,beyond,prefixed]
      simp
    · next apart =>
      rw [contains_v6 long short long' short' kept,show 128 - 128 + ones = ones by omega,and_comm]
      refine and_congr_right fun agree => ⟨fun other _ => other,fun undecided => ?_⟩
      by_cases many : 96 ≤ ones
      · -- all of the prefix is fixed, and not to that of IPv4 addresses
        rw [show ones = 96 + (ones - 96) by omega,beyond] at agree
        exact fun mapped => apart ⟨agree.1 ▸ mapped,many⟩
      · exact undecided (by omega)

end Net

/-- `quote` is the verb `%q`. -/
def parseCIDRList (quote : String → String) (downstreams : String) : Except String (List Net.IPNet) :=
  go (Strings.split ',' downstreams)
where
  go : List String → Except String (List Net.IPNet)
    | [] => .ok []
    | part :: rest =>
      let v := Strings.trimSpace part
      if v = "" then go rest
      else
        match Net.parseCIDR v with
        | .error message => .error ("failed to parse CIDR range " ++ quote v ++ ": " ++ message)
        | .ok ipNet =>
          match go rest with
          | .error message => .error message
          | .ok nets => .ok (ipNet :: nets)

def cidrEntries (downstreams : String) : List String :=
  ((Strings.split ',' downstreams).map Strings.trimSpace).filter (· ≠ "")

/-- The entries are read in order up to the first that is no range. -/
theorem parseCIDRList.go_cases (quote : String → String) (parts : List String) :
    (∃ ranges : List Net.Cidr, ((parts.map Strings.trimSpace).filter (· ≠ "")).map Net.readCIDR = ranges.map some ∧
      go quote parts = .ok (ranges.map Net.Cidr.ipNet)) ∨
    ∃ before entry after, (parts.map Strings.trimSpace).filter (· ≠ "") = before ++ entry :: after ∧
      (∀ e ∈ before, Net.readCIDR e ≠ none) ∧ Net.readCIDR entry = none ∧
      go quote parts = .error ("failed to parse CIDR range " ++ quote entry ++ ": " ++
        ("invalid CIDR address: " ++ entry)) := by
  induction parts with
  | nil => exact .inl ⟨[],rfl,rfl⟩
  | cons part rest ih =>
    by_cases blank : Strings.trimSpace part = ""
    · simpa [go,blank] using ih
    · cases read : Net.readCIDR (Strings.trimSpace part) with
      | none =>
        refine .inr ⟨[],Strings.trimSpace part,(rest.map Strings.trimSpace).filter (· ≠ ""),?_,by simp,read,?_⟩
        · simp [blank]
        · simp [go,blank,Net.parseCIDR,read]
      | some range =>
        rcases ih with ⟨ranges,reads,done⟩ | ⟨before,entry,after,entries,fine,bad,failed⟩
        · refine .inl ⟨range :: ranges,?_,?_⟩
          · simpa [blank,read] using reads
          · simp [go,blank,Net.parseCIDR,read,done]
        · refine .inr ⟨Strings.trimSpace part :: before,entry,after,?_,?_,bad,?_⟩
          · simpa [blank] using entries
          · simpa [read] using fine
          · simp [go,blank,Net.parseCIDR,read,failed]

theorem trusted_ranges {entries : List String} {ranges : List Net.Cidr}
    (reads : entries.map Net.readCIDR = ranges.map some) (ip : String) :
    trusted (ranges.map Net.Cidr.ipNet) ip = true ↔ ∃ address, Net.parseIP ip = some address ∧
      ∃ entry ∈ entries, ∃ range, Net.readCIDR entry = some range ∧ range.Covers address := by
  have listed (range : Net.Cidr) : range ∈ ranges ↔ ∃ entry ∈ entries, Net.readCIDR entry = some range := by
    rw [← List.mem_map_of_injective (Option.some_injective _),← reads,List.mem_map]
  unfold trusted
  cases parsed : Net.parseIP ip with
  | none => simp
  | some address =>
    have long := Net.parseIP_length parsed
    simp only [List.any_map,List.any_eq_true,Function.comp_apply,Option.some.injEq,exists_eq_left']
    constructor
    · rintro ⟨range,member,contains⟩
      obtain ⟨entry,mem,read⟩ := (listed range).mp member
      exact ⟨entry,mem,range,read,(Net.Cidr.contains_iff read long).mp contains⟩
    · rintro ⟨entry,mem,range,read,covers⟩
      exact ⟨range,(listed range).mpr ⟨entry,mem,read⟩,(Net.Cidr.contains_iff read long).mpr covers⟩

/-- Either every entry of the option is a range, and the trusted addresses are those that agree with
one of them in all the bits it fixes, IPv4 addresses only with ranges that fix the prefix of these;
or the first entry that is none is named in the error. -/
theorem trusted_iff_listed (quote : String → String) (downstreams : String) :
    (∃ nets, parseCIDRList quote downstreams = .ok nets ∧
      (∀ entry ∈ cidrEntries downstreams, Net.readCIDR entry ≠ none) ∧
      ∀ ip, trusted nets ip = true ↔ ∃ address, Net.parseIP ip = some address ∧
        ∃ entry ∈ cidrEntries downstreams, ∃ range, Net.readCIDR entry = some range ∧ range.Covers address) ∨
    ∃ before entry after, cidrEntries downstreams = before ++ entry :: after ∧
      (∀ e ∈ before, Net.readCIDR e ≠ none) ∧ Net.readCIDR entry = none ∧
      parseCIDRList quote downstreams = .error ("failed to parse CIDR range " ++ quote entry ++ ": " ++
        ("invalid CIDR address: " ++ entry)) := by
  rcases parseCIDRList.go_cases quote (Strings.split ',' downstreams) with ⟨ranges,reads,done⟩ | failed
  · refine .inl ⟨_,done,fun entry member absent => ?_,trusted_ranges reads⟩
    have : none ∈ ranges.map some := reads ▸ List.mem_map.mpr ⟨entry,member,absent⟩
    simp at this
  · exact .inr failed

/-- The whole of IPv6 includes no IPv4 client. -/
example : (parseCIDRList id "::/0").toOption.map (fun nets => ["2001:db8::1","192.0.2.1","::ffff:192.0.2.1"].map
    (trusted nets)) = some [true,false,false] := by decide +kernel

example : (parseCIDRList id " 192.0.2.128/25, ,::ffff:0:0/96").toOption.map (fun nets =>
    ["192.0.2.200","192.0.2.1","2001:db8::1"].map (trusted nets)) = some [true,true,false] := by decide +kernel

end Centauri
