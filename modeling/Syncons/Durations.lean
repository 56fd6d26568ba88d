import Mathlib.Data.Rat.Floor
import Mathlib.Algebra.Order.Field.Rat
import Mathlib.Tactic.FieldSimp
import Syncons.DecimalText

/-! Durations as text. The formatter prints a whole quotient with six significant digits,
so a duration comes back from its text when the digits it prints are all it has. Floats
are read as exact. -/
namespace Syncons
open DecimalText

namespace Duration

inductive DurationError where
  | missingMagnitude (text : List Char)
  | unsupported (text : List Char)
  | notFloat (magnitude : List Char)
  | infinite
  | nan
  deriving DecidableEq, Repr

inductive PyFloat where
  | finite (x : Rat)
  | infinite
  | nan
  deriving DecidableEq, Repr

section Reading

def isSpace (c : Char) : Bool :=
  c.toNat ∈ [9,10,11,12,13,28,29,30,31,32,0x85,0xA0,0x1680,0x2028,0x2029,0x202F,0x205F,0x3000] ||
    (0x2000 ≤ c.toNat && c.toNat ≤ 0x200A)

def strip (text : List Char) : List Char := (text.dropWhile isSpace).rdropWhile isSpace

def lower (text : List Char) : List Char := text.map Char.toLower

def moreDigits : List Char → List Char × List Char
  | [] => ([],[])
  | '_' :: d :: rest =>
    if d.isDigit then
      let (ds,after) := moreDigits rest
      (d :: ds,after)
    else ([],'_' :: d :: rest)
  | c :: rest =>
    if c.isDigit then
      let (ds,after) := moreDigits rest
      (c :: ds,after)
    else ([],c :: rest)

def digitPart : List Char → List Char × List Char
  | [] => ([],[])
  | c :: rest => if c.isDigit then moreDigits (c :: rest) else ([],c :: rest)

def sign : List Char → Bool × List Char
  | '-' :: rest => (true,rest)
  | '+' :: rest => (false,rest)
  | rest => (false,rest)

def exponent : List Char → Option Int
  | [] => some 0
  | c :: rest =>
    if c = 'e' ∨ c = 'E' then
      let (negative,rest) := sign rest
      match digitPart rest with
      | ([],_) => none
      | (ds,[]) =>
        let e : Int := Nat.ofDigitChars 10 ds 0
        some (if negative then -e else e)
      | (_,_ :: _) => none
    else none

def fraction : List Char → List Char × List Char
  | '.' :: rest => digitPart rest
  | rest => ([],rest)

def number (text : List Char) : Option Rat :=
  let (whole,rest) := digitPart text
  let (frac,rest) := fraction rest
  if whole = [] ∧ frac = [] then none
  else
    (exponent rest).map (fun e =>
      (Nat.ofDigitChars 10 (whole ++ frac) 0 : Rat) * (10 : Rat) ^ (e - (frac.length : Int)))

def float (magnitude : List Char) : Except DurationError PyFloat :=
  let (negative,body) := sign (strip magnitude)
  if lower body = "inf".toList ∨ lower body = "infinity".toList then .ok .infinite
  else if lower body = "nan".toList then .ok .nan
  else
    match number body with
    | some x => .ok (.finite (if negative then -x else x))
    | none => .error (.notFloat magnitude)

-- To the nearest integer, half way to the even one.
def round (x : Rat) : Int :=
  let rest := x - x.floor
  if rest < 1 / 2 then x.floor
  else if 1 / 2 < rest then x.floor + 1
  else if x.floor % 2 = 0 then x.floor
  else x.floor + 1

def rounds (scale : Nat) : PyFloat → Except DurationError Int
  | .finite x => .ok (round (x * scale))
  | .infinite => .error .infinite
  | .nan => .error .nan

def units : List (List Char × Nat) :=
  [("ns".toList,1),("us".toList,1000),("ms".toList,1000000),("s".toList,1000000000)]

def parseDurationNs (text : List Char) : Except DurationError Int :=
  let value := lower (strip text)
  match units.find? (fun unit => unit.1.isSuffixOf value) with
  | none => .error (.unsupported text)
  | some (suffix,scale) =>
    let magnitude := strip (value.take (value.length - suffix.length))
    if magnitude = [] then .error (.missingMagnitude text)
    else do
      let x ← float magnitude
      rounds scale x

end Reading

section Printing

-- `:g` of a whole number.
def significant : Nat := 6

def scientific (n : Nat) : List Char :=
  let ds := Nat.toDigits 10 n
  let e := Nat.toDigits 10 (ds.length - 1)
  let mantissa :=
    match ds.rdropWhile (· = '0') with
    | [] => []
    | [d] => [d]
    | d :: tail => d :: '.' :: tail
  mantissa ++ 'e' :: '+' :: (if e.length < 2 then '0' :: e else e)

def formatNat (n : Nat) : List Char :=
  let r := rounded significant n
  if (Nat.toDigits 10 r).length ≤ significant then Nat.toDigits 10 r else scientific r

def formatG (q : Int) : List Char := if q < 0 then '-' :: formatNat q.natAbs else formatNat q.natAbs

def printed (v : Int) : List Char :=
  if v < 0 then '-' :: Nat.toDigits 10 v.natAbs else Nat.toDigits 10 v.natAbs

def formatDurationNs (valueNs : Int) : List Char :=
  if valueNs = 0 then "0ns".toList
  else if valueNs % 1000000000 = 0 then formatG (valueNs / 1000000000) ++ "s".toList
  else if valueNs % 1000000 = 0 then formatG (valueNs / 1000000) ++ "ms".toList
  else if valueNs % 1000 = 0 then formatG (valueNs / 1000) ++ "us".toList
  else printed valueNs ++ "ns".toList

end Printing

section Numerals
variable {ds after : List Char} {c : Char} {n : Nat}

def Stops (after : List Char) : Prop :=
  ∀ c ∈ after.head?, c.isDigit = false ∧ c ≠ '_'

theorem moreRead (digits : ∀ c ∈ ds, c.isDigit = true) (stops : Stops after) :
    moreDigits (ds ++ after) = (ds,after) := by
  induction ds with
  | nil =>
    cases after with
    | nil => rfl
    | cons c rest =>
      obtain ⟨other,notUnderscore⟩ := stops c rfl
      rw [List.nil_append,moreDigits.eq_3 _ _ (fun d rest' same _ => notUnderscore same)]
      simp [other]
  | cons c ds ih =>
    have digit := digits c (by simp)
    have notUnderscore : c ≠ '_' := by
      rintro rfl
      exact absurd digit (by decide)
    rw [List.cons_append,moreDigits.eq_3 _ _ (fun d rest' same _ => notUnderscore same),
      ih (fun d member => digits d (by simp [member]))]
    simp [digit]

theorem partRead (digits : ∀ c ∈ ds, c.isDigit = true) (nonempty : ds ≠ []) (stops : Stops after) :
    digitPart (ds ++ after) = (ds,after) := by
  cases ds with
  | nil => exact absurd rfl nonempty
  | cons c rest =>
    have digit := digits c (by simp)
    have read := moreRead digits stops
    rw [List.cons_append] at read ⊢
    simp [digitPart,digit,read]

theorem numberDigits (n : Nat) : number (Nat.toDigits 10 n) = some (n : Rat) := by
  have read := @partRead (Nat.toDigits 10 n) [] (fun _ => digitChars) Nat.toDigits_ne_nil (by simp [Stops])
  rw [List.append_nil] at read
  simp [number,read,fraction,exponent]

theorem exponentRead (n : Nat) (pad : List Char) (zeros : ∀ c ∈ pad, c = '0') :
    exponent ('e' :: '+' :: (pad ++ Nat.toDigits 10 n)) = some (n : Int) := by
  have digits : ∀ c ∈ pad ++ Nat.toDigits 10 n, c.isDigit = true := by
    intro c member
    rcases List.mem_append.mp member with padded | own
    · rw [zeros c padded]
      decide
    · exact digitChars own
  have read := @partRead (pad ++ Nat.toDigits 10 n) [] digits (by simp) (by simp [Stops])
  rw [List.append_nil] at read
  have value : Nat.ofDigitChars 10 (pad ++ Nat.toDigits 10 n) 0 = n := by
    rw [List.eq_replicate_of_mem zeros,Nat.ofDigitChars_append,Nat.ofDigitChars_replicate_zero]
    simp
  have nonempty : pad ++ Nat.toDigits 10 n ≠ [] := by simp
  generalize pad ++ Nat.toDigits 10 n = ds at read value nonempty
  cases ds with
  | nil => exact absurd rfl nonempty
  | cons d rest => simp [exponent,sign,read,value]

-- The digits before the zeros at the end of a number that has some.
theorem mantissaIs (positive : 0 < n) : ∃ d tail, d.isDigit = true ∧ (∀ c ∈ tail, c.isDigit = true) ∧
    (Nat.toDigits 10 n).rdropWhile (· = '0') = d :: tail ∧
    n = 10 ^ ((Nat.toDigits 10 n).length - (tail.length + 1)) * Nat.ofDigitChars 10 (d :: tail) 0 ∧
    tail.length + 1 ≤ (Nat.toDigits 10 n).length := by
  obtain ⟨d,ds,above,below,shape⟩ := leadDigit positive
  have kept := List.rdropWhile_prefix (fun c : Char => decide (c = '0')) (l := Nat.toDigits 10 n)
  have split := @zerosEnd (Nat.toDigits 10 n)
  have inside : ∀ c ∈ (Nat.toDigits 10 n).rdropWhile (· = '0'), c.isDigit = true :=
    fun c member => digitChars (kept.subset member)
  cases front : (Nat.toDigits 10 n).rdropWhile (· = '0') with
  | nil =>
    have zeros := List.rdropWhile_eq_nil_iff.mp front
    have lead : Nat.digitChar d ∈ Nat.toDigits 10 n := by simp [shape]
    have zero : Nat.digitChar d = '0' := by simpa using zeros _ lead
    have value := Nat.toNat_digitChar_sub_48_of_lt_ten below
    rw [zero] at value
    have none : ('0' : Char).toNat - 48 = 0 := by decide
    omega
  | cons c tail =>
    rw [front] at split inside
    refine ⟨c,tail,inside c (by simp),fun x member => inside x (by simp [member]),rfl,?_,?_⟩
    · have value := @Nat.ofDigitChars_ten_toDigits n
      rw [split,Nat.ofDigitChars_append,Nat.ofDigitChars_replicate_zero] at value
      exact value.symm
    · have short := kept.length_le
      rwa [front] at short

theorem paddedExponent (e : Nat) : ∃ pad, (∀ c ∈ pad, c = '0') ∧
    (if (Nat.toDigits 10 e).length < 2 then '0' :: Nat.toDigits 10 e else Nat.toDigits 10 e) =
      pad ++ Nat.toDigits 10 e := by
  split
  · exact ⟨['0'],by simp,rfl⟩
  · exact ⟨[],by simp,rfl⟩

theorem numberPointed {d : Char} {tail rest : List Char} {e : Int} (digit : d.isDigit = true)
    (digits : ∀ c ∈ tail, c.isDigit = true) (stops : Stops rest) (plain : rest.head? ≠ some '.')
    (reads : exponent rest = some e) :
    number ((match d :: tail with
      | [] => []
      | [d] => [d]
      | d :: tail => d :: '.' :: tail) ++ rest) =
      some ((Nat.ofDigitChars 10 (d :: tail) 0 : Rat) * (10 : Rat) ^ (e - (tail.length : Int))) := by
  have single : ∀ c ∈ [d], c.isDigit = true := by simpa using digit
  cases tail with
  | nil =>
    have read := partRead single (by simp) stops
    have none : fraction rest = ([],rest) := by
      unfold fraction
      split
      · simp at plain
      · rfl
    simp only [List.singleton_append] at read
    simp [number,read,none,reads]
  | cons t ts =>
    have read := @partRead [d] ('.' :: t :: ts ++ rest) single (by simp) (by simp [Stops])
    have fracRead := partRead digits (by simp) stops
    simp only [List.cons_append,List.nil_append] at read fracRead
    simp [number,read,fraction,fracRead,reads]

theorem numberScientific (positive : 0 < n) : number (scientific n) = some (n : Rat) := by
  obtain ⟨d,tail,digit,digits,front,value,short⟩ := mantissaIs positive
  obtain ⟨pad,zeros,padded⟩ := paddedExponent ((Nat.toDigits 10 n).length - 1)
  have reads := exponentRead ((Nat.toDigits 10 n).length - 1) pad zeros
  have spelled := @numberPointed d tail _ _ digit digits (by simp [Stops]) (by simp) reads
  simp only [scientific,front,padded]
  rw [spelled]
  have scale : (((Nat.toDigits 10 n).length - 1 : Nat) : Int) - (tail.length : Int) =
      (((Nat.toDigits 10 n).length - (tail.length + 1) : Nat) : Int) := by omega
  have cast : (n : Rat) = (10 : Rat) ^ ((Nat.toDigits 10 n).length - (tail.length + 1)) *
      (Nat.ofDigitChars 10 (d :: tail) 0 : Rat) := by exact_mod_cast congrArg (fun k : Nat => (k : Rat)) value
  rw [scale,zpow_natCast,mul_comm,← cast]

theorem numberFormatted (n : Nat) : number (formatNat n) = some (rounded significant n : Rat) := by
  unfold formatNat
  simp only
  split
  · exact numberDigits _
  · rename_i long
    refine numberScientific (Nat.pos_of_ne_zero ?_)
    intro zero
    rw [zero] at long
    exact long (by decide)

def Plain (c : Char) : Prop := c.isDigit = true ∨ c ∈ ['.','e','+','n','u','m','s']

theorem digitLower (digit : c.isDigit = true) : c.toLower = c := by
  have below := (digitBounds digit).2
  unfold Char.toLower
  split
  · rename_i upper
    have above : 65 ≤ c.toNat := UInt32.le_iff_toNat_le.mp upper.1
    omega
  · rfl

theorem plainSame (plain : Plain c) : c.toLower = c ∧ isSpace c = false := by
  rcases plain with digit | letter
  · obtain ⟨above,below⟩ := digitBounds digit
    refine ⟨digitLower digit,?_⟩
    simp only [isSpace,Bool.or_eq_false_iff,decide_eq_false_iff_not,Bool.and_eq_false_iff,
      List.mem_cons,List.not_mem_nil,or_false]
    omega
  · simp only [List.mem_cons,List.not_mem_nil,or_false] at letter
    rcases letter with rfl | rfl | rfl | rfl | rfl | rfl | rfl <;> decide

theorem lowerPlain (plain : ∀ c ∈ ds, Plain c) : lower ds = ds := by
  have same := List.map_congr_left (fun c member => (plainSame (plain c member)).1)
  simpa [lower] using same

theorem stripPlain (plain : ∀ c ∈ ds, Plain c) : strip ds = ds := by
  have front : ds.dropWhile isSpace = ds := by
    cases ds with
    | nil => rfl
    | cons c rest => simp [(plainSame (plain c (by simp))).2]
  rw [strip,front,List.rdropWhile_eq_self_iff]
  intro nonempty
  simp [(plainSame (plain _ (List.getLast_mem nonempty))).2]

end Numerals

section RoundTrip
variable {c : Char} {mag : List Char} {n scale : Nat} {suffix : List Char}

/- A magnitude as the printer writes it: it begins and ends with a digit. -/
structure Magnitude (mag : List Char) : Prop where
  plain : ∀ c ∈ mag, Plain c
  first : ∃ d rest, mag = d :: rest ∧ d.isDigit = true
  last : ∃ front d, mag = front ++ [d] ∧ d.isDigit = true

theorem magnitudeDigits (digits : ∀ c ∈ mag, c.isDigit = true) (nonempty : mag ≠ []) : Magnitude mag := by
  refine ⟨fun c member => .inl (digits c member),?_,?_⟩
  · obtain ⟨d,rest,rfl⟩ := List.exists_cons_of_ne_nil nonempty
    exact ⟨d,rest,rfl,digits d (by simp)⟩
  · rcases List.eq_nil_or_concat mag with empty | ⟨front,d,rfl⟩
    · exact absurd empty nonempty
    · exact ⟨front,d,by simp,digits d (by simp)⟩

theorem magnitudeScientific (positive : 0 < n) : Magnitude (scientific n) := by
  obtain ⟨d,tail,digit,digits,front,value,short⟩ := mantissaIs positive
  obtain ⟨pad,zeros,padded⟩ := paddedExponent ((Nat.toDigits 10 n).length - 1)
  have ends : Magnitude (pad ++ Nat.toDigits 10 ((Nat.toDigits 10 n).length - 1)) := by
    refine magnitudeDigits ?_ (by simp)
    intro c member
    rcases List.mem_append.mp member with padding | own
    · rw [zeros c padding]
      decide
    · exact digitChars own
  obtain ⟨body,final,shape,finalDigit⟩ := ends.last
  simp only [scientific,front,padded]
  have first : ∃ rest, (match d :: tail with
      | [] => []
      | [d] => [d]
      | d :: tail => d :: '.' :: tail) = d :: rest ∧ ∀ c ∈ rest, Plain c := by
    cases tail with
    | nil => exact ⟨[],rfl,by simp⟩
    | cons t ts =>
      refine ⟨'.' :: t :: ts,rfl,?_⟩
      intro c member
      rcases List.mem_cons.mp member with rfl | inside
      · exact .inr (by simp)
      · exact .inl (digits c inside)
  obtain ⟨rest,begins,plain⟩ := first
  rw [begins]
  refine ⟨?_,⟨d,_,rfl,digit⟩,?_⟩
  · intro c member
    simp only [List.cons_append,List.mem_cons,List.mem_append (s := rest)] at member
    rcases member with rfl | inside | rfl | rfl | exponent
    · exact .inl digit
    · exact plain c inside
    · exact .inr (by simp)
    · exact .inr (by simp)
    · exact ends.plain c exponent
  · refine ⟨d :: rest ++ 'e' :: '+' :: body,final,?_,finalDigit⟩
    rw [shape]
    simp

theorem magnitudeFormatted (n : Nat) : Magnitude (formatNat n) := by
  unfold formatNat
  simp only
  split
  · exact magnitudeDigits (fun _ => digitChars) Nat.toDigits_ne_nil
  · rename_i long
    refine magnitudeScientific (Nat.pos_of_ne_zero ?_)
    intro zero
    rw [zero] at long
    exact long (by decide)

theorem floatRead {x : Rat} (magnitude : Magnitude mag) (reads : number mag = some x) :
    float mag = .ok (.finite x) := by
  obtain ⟨d,rest,rfl,digit⟩ := magnitude.first
  have unsigned : sign (d :: rest) = (false,d :: rest) := by
    unfold sign
    split
    · rename_i same
      cases same
      exact absurd digit (by decide)
    · rename_i same
      cases same
      exact absurd digit (by decide)
    · rfl
  have lead : ∀ word : List Char, (∀ c ∈ word.head?, c.isDigit = false) → word ≠ [] →
      lower (d :: rest) ≠ word := by
    intro word letters nonempty same
    cases word with
    | nil => exact nonempty rfl
    | cons w others =>
      have head : d.toLower = w := List.head_eq_of_cons_eq same
      rw [digitLower digit] at head
      have other := letters w rfl
      rw [← head,digit] at other
      cases other
  have inf := lead "inf".toList (by simp) (by simp)
  have infinity := lead "infinity".toList (by simp) (by simp)
  have nan := lead "nan".toList (by simp) (by simp)
  simp only [float,stripPlain magnitude.plain,unsigned,inf,infinity,nan,or_self,if_false,reads]
  rfl

theorem roundWhole (k : Nat) : round (k : Rat) = k := by
  have floor : (k : Rat).floor = k := Rat.floor_intCast k
  simp [round,floor]

theorem unitFound (magnitude : Magnitude mag) (member : (suffix,scale) ∈ units) :
    units.find? (fun unit => unit.1.isSuffixOf (mag ++ suffix)) = some (suffix,scale) := by
  obtain ⟨front,d,rfl,digit⟩ := magnitude.last
  have apart : ∀ w : Char, w.isDigit = false → (d == w) = false := by
    intro w letter
    rw [beq_eq_false_iff_ne]
    rintro rfl
    simp [digit] at letter
  simp only [units,List.mem_cons,List.not_mem_nil,or_false,Prod.mk.injEq] at member
  rcases member with ⟨rfl,rfl⟩ | ⟨rfl,rfl⟩ | ⟨rfl,rfl⟩ | ⟨rfl,rfl⟩
  all_goals simp [units,List.isSuffixOf,List.isPrefixOf,apart,Bool.beq_comm]

theorem parsePrinted (magnitude : Magnitude mag) (reads : number mag = some (n : Rat))
    (member : (suffix,scale) ∈ units) : parseDurationNs (mag ++ suffix) = .ok ((n * scale : Nat) : Int) := by
  have plain : ∀ c ∈ mag ++ suffix, Plain c := by
    intro c inside
    rcases List.mem_append.mp inside with own | unit
    · exact magnitude.plain c own
    · refine .inr ?_
      simp only [units,List.mem_cons,List.not_mem_nil,or_false,Prod.mk.injEq] at member
      rcases member with ⟨rfl,rfl⟩ | ⟨rfl,rfl⟩ | ⟨rfl,rfl⟩ | ⟨rfl,rfl⟩ <;>
        simp at unit <;> grind
  have nonempty : mag ≠ [] := by
    obtain ⟨d,rest,rfl,_⟩ := magnitude.first
    simp
  have cut : (mag ++ suffix).take ((mag ++ suffix).length - suffix.length) = mag := by simp
  have whole : (n : Rat) * (scale : Rat) = ((n * scale : Nat) : Rat) := by simp
  simp only [parseDurationNs,stripPlain plain,lowerPlain plain,unitFound magnitude member,cut,
    stripPlain magnitude.plain,nonempty,if_false,floatRead magnitude reads]
  show rounds scale (.finite n) = _
  rw [rounds,whole,roundWhole]

theorem quotientBack {q j : Nat} (member : (suffix,10 ^ j) ∈ units) :
    parseDurationNs (formatNat q ++ suffix) = .ok ((q * 10 ^ j : Nat) : Int) ↔
      FewDigits significant (q * 10 ^ j) := by
  rw [parsePrinted (magnitudeFormatted q) (numberFormatted q) member,fewDigitsScaled,
    ← roundedSame (by decide)]
  constructor
  · intro same
    have scaled := Int.ofNat.inj (Except.ok.inj same)
    exact Nat.eq_of_mul_eq_mul_right (Nat.pow_pos (by decide)) scaled
  · intro same
    rw [same]

theorem formatNonneg {q : Int} (nonneg : 0 ≤ q) : formatG q = formatNat q.toNat := by
  rw [formatG,if_neg (by omega)]
  congr 1
  omega

theorem printedUnit {v j : Nat} (member : (suffix,10 ^ j) ∈ units) (whole : v % 10 ^ j = 0)
    (shape : formatDurationNs v = formatG ((v : Int) / ((10 ^ j : Nat) : Int)) ++ suffix) :
    parseDurationNs (formatDurationNs v) = .ok (v : Int) ↔ FewDigits significant v := by
  have back := @quotientBack suffix (v / 10 ^ j) j member
  rw [Nat.div_mul_cancel (Nat.dvd_of_mod_eq_zero whole)] at back
  rw [shape,formatNonneg (by positivity),← back]
  rfl

theorem durationRoundTrip (v : Nat) :
    parseDurationNs (formatDurationNs v) = .ok (v : Int) ↔
      v % 1000 ≠ 0 ∨ ∃ m k, m < 10 ^ 6 ∧ v = m * 10 ^ k := by
  rcases Nat.eq_zero_or_pos v with zero | positive
  · subst zero
    exact iff_of_true (by decide +kernel) (.inr ⟨0,0,by decide,rfl⟩)
  have nonzero : (v : Int) ≠ 0 := by omega
  by_cases seconds : v % 1000000000 = 0
  · have shape : formatDurationNs v = formatG ((v : Int) / ((10 ^ 9 : Nat) : Int)) ++ "s".toList := by
      rw [formatDurationNs,if_neg nonzero,if_pos (by omega)]
      rfl
    rw [printedUnit (by simp [units]) (by omega) shape]
    simp [FewDigits,significant,show v % 1000 = 0 by omega]
  by_cases millis : v % 1000000 = 0
  · have shape : formatDurationNs v = formatG ((v : Int) / ((10 ^ 6 : Nat) : Int)) ++ "ms".toList := by
      rw [formatDurationNs,if_neg nonzero,if_neg (by omega),if_pos (by omega)]
      rfl
    rw [printedUnit (by simp [units]) (by omega) shape]
    simp [FewDigits,significant,show v % 1000 = 0 by omega]
  by_cases micros : v % 1000 = 0
  · have shape : formatDurationNs v = formatG ((v : Int) / ((10 ^ 3 : Nat) : Int)) ++ "us".toList := by
      rw [formatDurationNs,if_neg nonzero,if_neg (by omega),if_neg (by omega),if_pos (by omega)]
      rfl
    rw [printedUnit (by simp [units]) (by omega) shape]
    simp [FewDigits,significant,micros]
  · have shape : formatDurationNs v = Nat.toDigits 10 v ++ "ns".toList := by
      rw [formatDurationNs,if_neg nonzero,if_neg (by omega),if_neg (by omega),if_neg (by omega),printed,
        if_neg (by omega)]
      rfl
    have exact' := parsePrinted (magnitudeDigits (fun _ => digitChars) Nat.toDigits_ne_nil)
      (numberDigits v) (show ("ns".toList,1) ∈ units by simp [units])
    rw [shape,exact']
    simp [micros]

-- 1.234567 s is printed as 1.23457e+06us.
theorem digitsLost : formatDurationNs 1234567000 = "1.23457e+06us".toList ∧
    parseDurationNs (formatDurationNs 1234567000) = .ok 1234570000 ∧
    parseDurationNs (formatDurationNs 1234567000) ≠ .ok 1234567000 := by
  have printed : parseDurationNs (formatDurationNs 1234567000) = .ok 1234570000 := by decide +kernel
  refine ⟨by decide +kernel,printed,?_⟩
  rw [printed]
  decide

end RoundTrip

end Duration

end Syncons
