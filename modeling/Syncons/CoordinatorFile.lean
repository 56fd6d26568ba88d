import Mathlib.Data.Finmap
import Syncons.DecimalText
import Syncons.HostAgent

/-! The configuration file of the coordinator. A file lists the sections and entries of a
configuration, in any order and with any blanks, empty lines and comments; reading it back
gives the configuration when every node id is written with one digit. -/
namespace Syncons.Ssr
open DecimalText

structure CoordinatorConfig where
  listenAddress : List Char := []
  nodeAddresses : Finmap (fun _ : NodeId => List Char) := ∅
  nodeMacs : Finmap (fun _ : NodeId => List Char) := ∅
  ethernetType : UInt16 := 0x88B5
  roundLengthNs : UInt32 := 2000

namespace CoordinatorConfig

section Numbers

def isspace (c : Char) : Bool := c.toNat ∈ [9,10,11,12,13,32]

def digitValue (c : Char) : Nat :=
  if c.isDigit then c.toNat - '0'.toNat
  else if 'a' ≤ c ∧ c ≤ 'z' then c.toNat - 'a'.toNat + 10
  else if 'A' ≤ c ∧ c ≤ 'Z' then c.toNat - 'A'.toNat + 10
  else 36

def sign : List Char → Bool × List Char
  | '-' :: rest => (true,rest)
  | '+' :: rest => (false,rest)
  | rest => (false,rest)

def baseOf : List Char → Nat × List Char
  | '0' :: x :: d :: rest =>
    if (x = 'x' ∨ x = 'X') ∧ digitValue d < 16 then (16,d :: rest) else (8,'0' :: x :: d :: rest)
  | '0' :: rest => (8,'0' :: rest)
  | rest => (10,rest)

-- `std::stoul` with base 0: the value and how many characters it takes.
def stoul (text : List Char) : Except Exception (Nat × Nat) :=
  let (negative,body) := sign (text.dropWhile isspace)
  let (base,digits) := baseOf body
  let run := digits.takeWhile (fun c => digitValue c < base)
  if run = [] then .error (.invalidArgument "stoul")
  else
    let value := run.foldl (fun sofar c => base * sofar + digitValue c) 0
    if 2 ^ 64 ≤ value then .error (.other "stoul")
    else .ok (if negative then (2 ^ 64 - value) % 2 ^ 64 else value,
      text.length - (digits.length - run.length))

def parseU32 (text : List Char) (optionName : String) : Except Exception UInt32 := do
  let (value,parsedLength) ← stoul text
  if parsedLength ≠ text.length ∨ 2 ^ 32 ≤ value then
    throw (.invalidArgument ("Invalid value for option '" ++ optionName ++ "': '" ++
      String.ofList text ++ "' is not a valid unsigned integer"))
  pure (UInt32.ofNat value)

end Numbers

section Words

def addressKey : List Char := ['a','d','d','r','e','s','s']
def replicaKey : List Char := ['r','e','p','l','i','c','a']
def macKey : List Char := ['m','a','c']
def roundLengthKey : List Char := ['r','o','u','n','d','_','l','e','n','g','t','h','_','n','s']

def coordinatorName : List Char := ['C','o','o','r','d','i','n','a','t','o','r']
def agentName : List Char := ['A','g','e','n','t']
def dataplaneName : List Char := ['D','a','t','a','p','l','a','n','e']

end Words

section Lines

-- The lines that `std::getline` yields: what follows the last newline only if there is any.
def getlines : List Char → List (List Char)
  | [] => []
  | c :: rest =>
    if c = '\n' then [] :: getlines rest
    else
      match getlines rest with
      | [] => [[c]]
      | line :: lines => (c :: line) :: lines

def trimmed (c : Char) : Bool := c.toNat ∈ [9,10,13,32]

def clean (line : List Char) : List Char :=
  ((line.dropWhile trimmed).rdropWhile trimmed).filter (fun c => !isspace c)

-- What follows the first `=`, or the line itself.
def afterEquals (line : List Char) : List Char :=
  match line.dropWhile (· ≠ '=') with
  | [] => line
  | _ :: value => value

structure Reading where
  currentSection : List Char := []
  config : CoordinatorConfig

def coordinatorLine (config : CoordinatorConfig) (line : List Char) :
    Except Exception CoordinatorConfig :=
  if addressKey.isPrefixOf line then .ok {config with listenAddress := afterEquals line}
  else .ok config

def agentLine (config : CoordinatorConfig) (line : List Char) : Except Exception CoordinatorConfig :=
  if replicaKey.isPrefixOf line then do
    let nodeId ← parseU32 ((line.drop 7).take 1) "replica ID"
    pure {config with nodeAddresses := config.nodeAddresses.insert nodeId (afterEquals line)}
  else if macKey.isPrefixOf line then do
    let nodeId ← parseU32 ((line.drop 3).take 1) "mac ID"
    pure {config with nodeMacs := config.nodeMacs.insert nodeId (afterEquals line)}
  else .ok config

def dataplaneLine (config : CoordinatorConfig) (line : List Char) :
    Except Exception CoordinatorConfig :=
  if roundLengthKey.isPrefixOf line then do
    let roundLengthNs ← parseU32 (afterEquals line) "round_length_ns"
    pure {config with roundLengthNs := roundLengthNs}
  else .ok config

def blank (line : List Char) : Bool := line = [] || line.head? = some '#'

def handleLine (r : Reading) (line : List Char) : Except Exception Reading :=
  if blank line then .ok r
  else if line.head? = some '[' ∧ line.getLast? = some ']' then
    .ok {r with currentSection := (line.drop 1).take (line.length - 2)}
  else if r.currentSection = coordinatorName then
    (coordinatorLine r.config line).map (fun config => {r with config := config})
  else if r.currentSection = agentName then
    (agentLine r.config line).map (fun config => {r with config := config})
  else if r.currentSection = dataplaneName then
    (dataplaneLine r.config line).map (fun config => {r with config := config})
  else
    .error (.invalidArgument ("Unknown section in configuration file: '" ++
      String.ofList r.currentSection ++ "'"))

-- Nothing is read from a file that cannot be opened.
def parseConfigFile (file : Option (List Char)) (config : CoordinatorConfig) :
    Except Exception (Bool × CoordinatorConfig) :=
  match file with
  | none => .ok (false,config)
  | some text =>
    (((getlines text).map clean).foldlM handleLine {config := config}).map (fun r => (true,r.config))

end Lines

section Format

inductive Section where
  | coordinator | agent | dataplane
  deriving DecidableEq, Repr

def Section.name : Section → List Char
  | coordinator => coordinatorName
  | agent => agentName
  | dataplane => dataplaneName

inductive Entry where
  | address (value : List Char)
  | replica (id : NodeId) (value : List Char)
  | mac (id : NodeId) (value : List Char)
  | roundLength (ns : UInt32)
  deriving DecidableEq, Repr

def Entry.within : Entry → Section
  | address _ => .coordinator
  | replica _ _ | mac _ _ => .agent
  | roundLength _ => .dataplane

def Entry.line : Entry → List Char
  | address value => addressKey ++ '=' :: value
  | replica id value => replicaKey ++ Nat.toDigits 10 id.toNat ++ '=' :: value
  | mac id value => macKey ++ Nat.toDigits 10 id.toNat ++ '=' :: value
  | roundLength ns => roundLengthKey ++ '=' :: Nat.toDigits 10 ns.toNat

def entriesOf (c : CoordinatorConfig) : Multiset Entry :=
  .address c.listenAddress ::ₘ .roundLength c.roundLengthNs ::ₘ
    (c.nodeAddresses.entries.map (fun e => .replica e.1 e.2) +
      c.nodeMacs.entries.map (fun e => .mac e.1 e.2))

def Section.lines (block : Section × List Entry) : List (List Char) :=
  ('[' :: block.1.name ++ [']']) :: block.2.map Entry.line

/- A file in the documented format: blanks, empty lines and comments aside, its lines are
sections with their entries, and these are all the entries of the configuration. -/
structure Documents (c : CoordinatorConfig) (blocks : List (Section × List Entry)) (file : List Char) :
    Prop where
  listed : ((getlines file).map clean).filter (fun line => !blank line) = blocks.flatMap Section.lines
  placed : ∀ block ∈ blocks, ∀ e ∈ block.2, e.within = block.1
  complete : (blocks.flatMap Prod.snd : Multiset Entry) = entriesOf c

end Format

section Decimals
variable {n d : Nat} {c : Char} {option : String}

theorem digitPlain (digit : c.isDigit = true) : digitValue c < 10 ∧ isspace c = false := by
  obtain ⟨above,below⟩ := digitBounds digit
  constructor
  · simp only [digitValue,digit,if_true]
    have zero : ('0' : Char).toNat = 48 := rfl
    omega
  · simp only [isspace,decide_eq_false_iff_not,List.mem_cons,List.not_mem_nil,or_false]
    omega

theorem digitsValue {cs : List Char} (digits : ∀ c ∈ cs, c.isDigit = true) (sofar : Nat) :
    cs.foldl (fun sofar c => 10 * sofar + digitValue c) sofar = Nat.ofDigitChars 10 cs sofar := by
  induction cs generalizing sofar with
  | nil => simp
  | cons c rest ih =>
    have digit := digits c (by simp)
    rw [List.foldl_cons,ih (fun x member => digits x (by simp [member])),Nat.ofDigitChars_cons]
    simp [digitValue,digit]

theorem baseDecimal (positive : 0 < n) : baseOf (Nat.toDigits 10 n) = (10,Nat.toDigits 10 n) := by
  obtain ⟨d,ds,above,below,shape⟩ := leadDigit positive
  have lead : Nat.digitChar d ≠ '0' := by
    intro zero
    have value := Nat.toNat_digitChar_sub_48_of_lt_ten below
    rw [zero] at value
    have none : ('0' : Char).toNat - 48 = 0 := by decide
    omega
  rw [shape]
  unfold baseOf
  split
  · rename_i same
    exact absurd (List.head_eq_of_cons_eq same) lead
  · rename_i same
    exact absurd (List.head_eq_of_cons_eq same) lead
  · rfl

theorem stoulDecimal (bound : n < 2 ^ 64) :
    stoul (Nat.toDigits 10 n) = .ok (n,(Nat.toDigits 10 n).length) := by
  rcases Nat.eq_zero_or_pos n with zero | positive
  · subst zero
    rfl
  have digits : ∀ c ∈ Nat.toDigits 10 n, c.isDigit = true := fun _ => digitChars
  obtain ⟨d,ds,above,below,shape⟩ := leadDigit positive
  have lead : (Nat.digitChar d).isDigit = true := digits _ (by simp [shape])
  have unspaced : (Nat.toDigits 10 n).dropWhile isspace = Nat.toDigits 10 n := by
    rw [shape,List.dropWhile_cons_of_neg (by simp [(digitPlain lead).2])]
  have unsigned : sign (Nat.toDigits 10 n) = (false,Nat.toDigits 10 n) := by
    rw [shape]
    unfold sign
    split
    · rename_i same
      rw [List.head_eq_of_cons_eq same] at lead
      exact absurd lead (by decide)
    · rename_i same
      rw [List.head_eq_of_cons_eq same] at lead
      exact absurd lead (by decide)
    · rfl
  have run : (Nat.toDigits 10 n).takeWhile (fun c => digitValue c < 10) = Nat.toDigits 10 n :=
    List.takeWhile_eq_self_iff.mpr (fun c member => by simpa using (digitPlain (digits c member)).1)
  have value := digitsValue digits 0
  rw [Nat.ofDigitChars_ten_toDigits] at value
  have small : ¬ 2 ^ 64 ≤ n := by omega
  simp only [stoul,unspaced,unsigned,baseDecimal positive,run,value,Nat.toDigits_ne_nil,if_false,small]
  simp

theorem parseDecimal (n : UInt32) : parseU32 (Nat.toDigits 10 n.toNat) option = .ok n := by
  have bound : n.toNat < 2 ^ 32 := n.toNat_lt
  simp only [parseU32,stoulDecimal (show n.toNat < 2 ^ 64 by omega)]
  have fits : ¬ ((Nat.toDigits 10 n.toNat).length ≠ (Nat.toDigits 10 n.toNat).length ∨
      2 ^ 32 ≤ n.toNat) := by
    simpa using bound
  show (do
    if (Nat.toDigits 10 n.toNat).length ≠ (Nat.toDigits 10 n.toNat).length ∨ 2 ^ 32 ≤ n.toNat then _
    pure (UInt32.ofNat n.toNat) : Except Exception UInt32) = _
  rw [if_neg fits]
  simp [pure,Except.pure]

def leading (id : NodeId) : NodeId :=
  UInt32.ofNat (Nat.ofDigitChars 10 ((Nat.toDigits 10 id.toNat).take 1) 0)

theorem leadingText (id : NodeId) : ∃ d, d < 10 ∧ (id < 10 → id.toNat = d) ∧
    (Nat.toDigits 10 id.toNat).take 1 = Nat.toDigits 10 d := by
  rcases Nat.eq_zero_or_pos id.toNat with zero | positive
  · exact ⟨0,by decide,fun _ => zero,by rw [zero]; rfl⟩
  · obtain ⟨d,ds,above,below,shape⟩ := leadDigit positive
    refine ⟨d,below,?_,?_⟩
    · intro small
      have single : id.toNat < 10 := UInt32.lt_iff_toNat_lt.mp small
      rw [Nat.toDigits_of_lt_base single] at shape
      have same := List.head_eq_of_cons_eq shape
      have left := Nat.toNat_digitChar_sub_48_of_lt_ten single
      rw [same,Nat.toNat_digitChar_sub_48_of_lt_ten below] at left
      exact left.symm
    · rw [shape,Nat.toDigits_of_lt_base below]
      rfl

theorem leadingParses (id : NodeId) :
    parseU32 ((Nat.toDigits 10 id.toNat).take 1) option = .ok (leading id) ∧ leading id < 10 ∧
      (id < 10 → leading id = id) := by
  obtain ⟨d,below,same,text⟩ := leadingText id
  have value : (UInt32.ofNat d).toNat = d := UInt32.toNat_ofNat_of_lt' (by simp only [UInt32.size]; omega)
  have lead : leading id = UInt32.ofNat d := by rw [leading,text,Nat.ofDigitChars_ten_toDigits]
  have parsed := @parseDecimal option (UInt32.ofNat d)
  rw [value] at parsed
  refine ⟨by rw [text,parsed,lead],?_,?_⟩
  · rw [lead,UInt32.lt_iff_toNat_lt,value]
    exact below
  · intro small
    rw [lead]
    exact UInt32.toNat_inj.mp (by rw [value,same small])

end Decimals

section Lines
variable {config : CoordinatorConfig} {e : Entry} {value : List Char} {id : NodeId}

def Entry.apply (config : CoordinatorConfig) : Entry → CoordinatorConfig
  | address value => {config with listenAddress := value}
  | replica id value => {config with nodeAddresses := config.nodeAddresses.insert (leading id) value}
  | mac id value => {config with nodeMacs := config.nodeMacs.insert (leading id) value}
  | roundLength ns => {config with roundLengthNs := ns}

theorem afterKey {key : List Char} (plain : '=' ∉ key) : afterEquals (key ++ '=' :: value) = value := by
  have dropped : (key ++ '=' :: value).dropWhile (· ≠ '=') = '=' :: value := by
    have other : ∀ c ∈ key, decide (c ≠ '=') = true := by
      intro c member
      simpa using ne_of_mem_of_not_mem member plain
    rw [List.dropWhile_append_of_pos other]
    simp
  rw [afterEquals,dropped]

theorem digitsNoEquals {word : List Char} (plain : '=' ∉ word) :
    '=' ∉ word ++ Nat.toDigits 10 id.toNat := by
  intro member
  rcases List.mem_append.mp member with own | digit
  · exact plain own
  · exact absurd (digitChars digit) (by decide)

theorem firstDigit (word : List Char) :
    ((word ++ Nat.toDigits 10 id.toNat ++ '=' :: value).drop word.length).take 1 =
      (Nat.toDigits 10 id.toNat).take 1 := by
  rw [List.append_assoc,List.drop_left]
  exact List.take_append_of_le_length Nat.length_toDigits_pos

theorem replicaRead : agentLine config (Entry.replica id value).line =
    .ok ((Entry.replica id value).apply config) := by
  have key := @afterKey value _ (@digitsNoEquals id replicaKey (by decide))
  have first : ((replicaKey ++ Nat.toDigits 10 id.toNat ++ '=' :: value).drop 7).take 1 =
      (Nat.toDigits 10 id.toNat).take 1 := firstDigit replicaKey
  have found : replicaKey.isPrefixOf (Entry.replica id value).line = true := by
    simp [Entry.line,List.isPrefixOf_iff_prefix]
  rw [agentLine,if_pos found]
  simp only [Entry.line,first,key,(leadingParses id).1]
  rfl

theorem macRead : agentLine config (Entry.mac id value).line =
    .ok ((Entry.mac id value).apply config) := by
  have key := @afterKey value _ (@digitsNoEquals id macKey (by decide))
  have first : ((macKey ++ Nat.toDigits 10 id.toNat ++ '=' :: value).drop 3).take 1 =
      (Nat.toDigits 10 id.toNat).take 1 := firstDigit macKey
  have missed : replicaKey.isPrefixOf (Entry.mac id value).line = false := by
    simp [Entry.line,replicaKey,macKey,List.isPrefixOf]
  have found : macKey.isPrefixOf (Entry.mac id value).line = true := by
    simp [Entry.line,List.isPrefixOf_iff_prefix]
  rw [agentLine,missed,if_neg (by decide),if_pos found]
  simp only [Entry.line,first,key,(leadingParses id).1]
  rfl

theorem addressRead : coordinatorLine config (Entry.address value).line =
    .ok ((Entry.address value).apply config) := by
  have key := @afterKey value addressKey (by decide)
  have found : addressKey.isPrefixOf (Entry.address value).line = true := by
    simp [Entry.line,List.isPrefixOf_iff_prefix]
  rw [coordinatorLine,if_pos found]
  have shape : (Entry.address value).line = addressKey ++ '=' :: value := rfl
  rw [shape,key]
  rfl

theorem roundLengthRead (ns : UInt32) : dataplaneLine config (Entry.roundLength ns).line =
    .ok ((Entry.roundLength ns).apply config) := by
  have key := @afterKey (Nat.toDigits 10 ns.toNat) roundLengthKey (by decide)
  have found : roundLengthKey.isPrefixOf (Entry.roundLength ns).line = true := by
    simp [Entry.line,List.isPrefixOf_iff_prefix]
  rw [dataplaneLine,if_pos found]
  have shape : (Entry.roundLength ns).line = roundLengthKey ++ '=' :: Nat.toDigits 10 ns.toNat := rfl
  rw [shape,key,parseDecimal]
  rfl

theorem sectionRead (r : Reading) (s : Section) :
    handleLine r ('[' :: s.name ++ [']']) = .ok {r with currentSection := s.name} := by
  cases s <;> rfl

theorem entryPlain (e : Entry) : blank e.line = false ∧ e.line.head? ≠ some '[' := by
  cases e <;> simp [Entry.line,addressKey,replicaKey,macKey,roundLengthKey,blank]

theorem entryRead (e : Entry) (config : CoordinatorConfig) :
    handleLine ⟨e.within.name,config⟩ e.line = .ok ⟨e.within.name,e.apply config⟩ := by
  obtain ⟨filled,open_⟩ := entryPlain e
  have apart : agentName ≠ coordinatorName ∧ dataplaneName ≠ coordinatorName ∧
      dataplaneName ≠ agentName := by decide
  rw [handleLine,filled,if_neg (by decide),if_neg (fun both => open_ both.1)]
  cases e with
  | address value =>
    simp only [Entry.within,Section.name,addressRead,if_true]
    rfl
  | replica id value =>
    simp only [Entry.within,Section.name,apart.1,if_false,if_true,replicaRead]
    rfl
  | mac id value =>
    simp only [Entry.within,Section.name,apart.1,if_false,if_true,macRead]
    rfl
  | roundLength ns =>
    simp only [Entry.within,Section.name,apart.2,if_false,if_true,roundLengthRead]
    rfl

theorem entriesRead {s : Section} {es : List Entry} (placed : ∀ e ∈ es, e.within = s)
    (config : CoordinatorConfig) :
    (es.map Entry.line).foldlM handleLine ⟨s.name,config⟩ =
      .ok ⟨s.name,es.foldl Entry.apply config⟩ := by
  induction es generalizing config with
  | nil => rfl
  | cons e rest ih =>
    have read := entryRead e config
    rw [placed e (by simp)] at read
    rw [List.map_cons,List.foldlM_cons,read]
    exact ih (fun x member => placed x (by simp [member])) (e.apply config)

theorem blocksRead {blocks : List (Section × List Entry)}
    (placed : ∀ block ∈ blocks, ∀ e ∈ block.2, e.within = block.1) (r : Reading) :
    ∃ last, (blocks.flatMap Section.lines).foldlM handleLine r =
      .ok ⟨last,(blocks.flatMap Prod.snd).foldl Entry.apply r.config⟩ := by
  induction blocks generalizing r with
  | nil => exact ⟨r.currentSection,rfl⟩
  | cons block rest ih =>
    have entries := entriesRead (placed block (by simp)) r.config
    obtain ⟨last,others⟩ := ih (fun b member => placed b (by simp [member]))
      ⟨block.1.name,block.2.foldl Entry.apply r.config⟩
    refine ⟨last,?_⟩
    rw [List.flatMap_cons,List.foldlM_append,Section.lines,List.foldlM_cons,sectionRead]
    show (do
      let r ← (block.2.map Entry.line).foldlM handleLine ⟨block.1.name,r.config⟩
      (rest.flatMap Section.lines).foldlM handleLine r) = _
    rw [entries,List.flatMap_cons,List.foldl_append]
    exact others

theorem blanksSkipped (lines : List (List Char)) (r : Reading) :
    lines.foldlM handleLine r = (lines.filter (fun line => !blank line)).foldlM handleLine r := by
  induction lines generalizing r with
  | nil => rfl
  | cons line rest ih =>
    cases empty : blank line with
    | true =>
      have skipped : handleLine r line = .ok r := by rw [handleLine,if_pos empty]
      rw [List.foldlM_cons,skipped,List.filter_cons_of_neg (by simp [empty])]
      exact ih r
    | false =>
      rw [List.filter_cons_of_pos (by simp [empty]),List.foldlM_cons,List.foldlM_cons]
      exact congrArg (handleLine r line >>= ·) (funext ih)

theorem documentRead {c : CoordinatorConfig} {blocks : List (Section × List Entry)} {file : List Char}
    (documents : Documents c blocks file) :
    parseConfigFile (some file) config = .ok (true,(blocks.flatMap Prod.snd).foldl Entry.apply config) := by
  obtain ⟨last,read⟩ := blocksRead documents.placed ⟨[],config⟩
  rw [parseConfigFile,blanksSkipped,documents.listed,read]
  rfl

end Lines

section Maps
variable {es : List Entry} {config : CoordinatorConfig}

def Entry.addressOf : Entry → Option (List Char)
  | address value => some value
  | _ => none

def Entry.roundLengthOf : Entry → Option UInt32
  | roundLength ns => some ns
  | _ => none

def Entry.replicaOf : Entry → Option (Sigma (fun _ : NodeId => List Char))
  | replica id value => some ⟨id,value⟩
  | _ => none

def Entry.macOf : Entry → Option (Sigma (fun _ : NodeId => List Char))
  | mac id value => some ⟨id,value⟩
  | _ => none

abbrev Places := Finmap (fun _ : NodeId => List Char)

def Places.put (places : Places) (e : Sigma (fun _ : NodeId => List Char)) : Places :=
  places.insert (leading e.1) e.2

theorem fieldFold {κ φ : Type} {kind : Entry → Option κ} {get : CoordinatorConfig → φ}
    {put : φ → κ → φ} (each : ∀ config e, get (e.apply config) =
      match kind e with
      | some k => put (get config) k
      | none => get config) :
    get (es.foldl Entry.apply config) = (es.filterMap kind).foldl put (get config) := by
  induction es generalizing config with
  | nil => rfl
  | cons e rest ih =>
    rw [List.foldl_cons,ih,each,List.filterMap_cons]
    cases kind e <;> rfl

theorem addressesRead : (es.foldl Entry.apply config).nodeAddresses =
    (es.filterMap Entry.replicaOf).foldl Places.put config.nodeAddresses :=
  fieldFold (fun config e => by cases e <;> rfl)

theorem macsRead : (es.foldl Entry.apply config).nodeMacs =
    (es.filterMap Entry.macOf).foldl Places.put config.nodeMacs :=
  fieldFold (fun config e => by cases e <;> rfl)

theorem listenRead : (es.foldl Entry.apply config).listenAddress =
    (es.filterMap Entry.addressOf).foldl (fun _ value => value) config.listenAddress :=
  fieldFold (fun config e => by cases e <;> rfl)

theorem roundRead : (es.foldl Entry.apply config).roundLengthNs =
    (es.filterMap Entry.roundLengthOf).foldl (fun _ ns => ns) config.roundLengthNs :=
  fieldFold (fun config e => by cases e <;> rfl)

variable {c : CoordinatorConfig} {written : List (Sigma (fun _ : NodeId => List Char))} {places : Places}

theorem putAll (distinct : written.NodupKeys) (small : ∀ e ∈ written, e.1 < 10)
    (fresh : ∀ e ∈ written, e.1 ∉ places) :
    (written.foldl Places.put places).entries = (written : Multiset _) + places.entries := by
  induction written generalizing places with
  | nil => simp
  | cons e rest ih =>
    have lead := (@leadingParses "" e.1).2.2 (small e (by simp))
    have put : places.put e = places.insert e.1 e.2 := by rw [Places.put,lead]
    rw [List.nodupKeys_cons] at distinct
    have others := @ih (places.put e) distinct.2 (fun x member => small x (by simp [member])) (by
      intro x member held
      rw [put,Finmap.mem_insert] at held
      rcases held with same | before
      · exact distinct.1 (same ▸ List.mem_map_of_mem member)
      · exact fresh x (by simp [member]) before)
    rw [List.foldl_cons,others,put,Finmap.entries_insert_of_notMem (fresh e (by simp)),
      ← Multiset.cons_coe,Multiset.cons_add,Multiset.add_cons]

theorem putShort {id : NodeId} (held : id ∈ written.foldl Places.put places) : id ∈ places ∨ id < 10 := by
  induction written generalizing places with
  | nil => exact .inl held
  | cons e rest ih =>
    rcases ih held with before | small
    · rw [Places.put,Finmap.mem_insert] at before
      rcases before with rfl | earlier
      · exact .inr (@leadingParses "" e.1).2.1
      · exact .inl earlier
    · exact .inr small

theorem noneOf {α κ : Type} (bag : Multiset α) : bag.filterMap (fun _ => (none : Option κ)) = 0 := by
  induction bag using Multiset.induction_on with
  | empty => rfl
  | cons a bag ih => rw [Multiset.filterMap_cons_none _ _ rfl,ih]

theorem kindsOf {κ : Type} (kind : Entry → Option κ) (complete : (es : Multiset Entry) = entriesOf c) :
    (es.filterMap kind : Multiset κ) =
      ((kind (.address c.listenAddress)).map singleton).getD 0 +
        (((kind (.roundLength c.roundLengthNs)).map singleton).getD 0 +
          (c.nodeAddresses.entries.filterMap (fun e => kind (.replica e.1 e.2)) +
            c.nodeMacs.entries.filterMap (fun e => kind (.mac e.1 e.2)))) := by
  have kinds := congrArg (Multiset.filterMap kind) complete
  rw [Multiset.filterMap_coe,entriesOf] at kinds
  rw [kinds,Multiset.filterMap_cons,Multiset.filterMap_cons,Multiset.filterMap_add,
    Multiset.filterMap_map,Multiset.filterMap_map]
  rfl

theorem addressesWritten (complete : (es : Multiset Entry) = entriesOf c) :
    (es.filterMap Entry.replicaOf : Multiset _) = c.nodeAddresses.entries := by
  rw [kindsOf Entry.replicaOf complete]
  simp [Entry.replicaOf,noneOf]

theorem macsWritten (complete : (es : Multiset Entry) = entriesOf c) :
    (es.filterMap Entry.macOf : Multiset _) = c.nodeMacs.entries := by
  rw [kindsOf Entry.macOf complete]
  simp [Entry.macOf,noneOf]

theorem listenWritten (complete : (es : Multiset Entry) = entriesOf c) :
    es.filterMap Entry.addressOf = [c.listenAddress] := by
  have only := kindsOf Entry.addressOf complete
  simpa [Entry.addressOf,noneOf] using only

theorem roundWritten (complete : (es : Multiset Entry) = entriesOf c) :
    es.filterMap Entry.roundLengthOf = [c.roundLengthNs] := by
  have only := kindsOf Entry.roundLengthOf complete
  simpa [Entry.roundLengthOf,noneOf] using only

end Maps

section RoundTrip
variable {c : CoordinatorConfig} {blocks : List (Section × List Entry)} {file : List Char}

structure SameFile (c out : CoordinatorConfig) : Prop where
  listenAddress : out.listenAddress = c.listenAddress
  nodeAddresses : out.nodeAddresses = c.nodeAddresses
  nodeMacs : out.nodeMacs = c.nodeMacs
  roundLengthNs : out.roundLengthNs = c.roundLengthNs

def OneDigit (c : CoordinatorConfig) : Prop :=
  (∀ id ∈ c.nodeAddresses, id < 10) ∧ ∀ id ∈ c.nodeMacs, id < 10

theorem placesBack {places : Places} {written : List (Sigma (fun _ : NodeId => List Char))}
    (lists : (written : Multiset _) = places.entries) :
    written.foldl Places.put ∅ = places ↔ ∀ id ∈ places, id < 10 := by
  constructor
  · intro same id held
    rw [← same] at held
    rcases putShort held with before | small
    · exact absurd before Finmap.notMem_empty
    · exact small
  · intro small
    have distinct : written.NodupKeys := by
      have keys := places.nodupKeys
      rw [← lists] at keys
      exact Multiset.coe_nodupKeys.mp keys
    have inside : ∀ e ∈ written, e.1 ∈ places := by
      intro e member
      have entry : e ∈ places.entries := by
        rw [← lists]
        exact member
      exact Multiset.mem_map_of_mem _ entry
    have put := @putAll written ∅ distinct (fun e member => small e.1 (inside e member))
      (fun e _ => Finmap.notMem_empty)
    refine Finmap.ext ?_
    rw [put,lists]
    exact add_zero places.entries

/- A documented file reads back as the configuration it was written from exactly when its
node ids have one digit. -/
theorem configRoundTrip (documents : Documents c blocks file) :
    (∃ out, parseConfigFile (some file) {} = .ok (true,out) ∧ SameFile c out) ↔ OneDigit c := by
  have read := documents.complete
  have addresses := placesBack (addressesWritten read)
  have macs := placesBack (macsWritten read)
  rw [documentRead documents]
  constructor
  · rintro ⟨out,same,back⟩
    cases same
    exact ⟨addresses.mp (addressesRead.symm.trans back.nodeAddresses),
      macs.mp (macsRead.symm.trans back.nodeMacs)⟩
  · rintro ⟨small,smallMacs⟩
    refine ⟨_,rfl,?_,addressesRead.trans (addresses.mpr small),macsRead.trans (macs.mpr smallMacs),?_⟩
    · rw [listenRead,listenWritten read]
      rfl
    · rw [roundRead,roundWritten read]
      rfl

def spell (blocks : List (Section × List Entry)) : List Char :=
  (blocks.flatMap Section.lines).flatMap (fun line => line ++ ['\n'])

theorem getlinesSpelled {lines : List (List Char)} (unbroken : ∀ line ∈ lines, '\n' ∉ line) :
    getlines (lines.flatMap (fun line => line ++ ['\n'])) = lines := by
  have oneLine : ∀ line rest, '\n' ∉ line → getlines (line ++ '\n' :: rest) = line :: getlines rest := by
    intro line rest whole
    induction line with
    | nil => rfl
    | cons c others ih =>
      have before := ih (fun inside => whole (List.mem_cons_of_mem _ inside))
      have other : c ≠ '\n' := fun same => whole (same ▸ List.mem_cons_self)
      rw [List.cons_append,getlines,if_neg other,before]
  induction lines with
  | nil => rfl
  | cons line rest ih =>
    rw [List.flatMap_cons,List.append_assoc,List.singleton_append,oneLine _ _ (unbroken line (by simp)),
      ih (fun x member => unbroken x (by simp [member]))]

def unspaced (text : List Char) : Prop := ∀ c ∈ text, isspace c = false

theorem unspacedAll {text : List Char} (plain : text.all (fun c => !isspace c) = true) : unspaced text := by
  intro c member
  simpa using List.all_eq_true.mp plain c member

theorem cleanSame {line : List Char} (plain : unspaced line) : clean line = line := by
  have kept : ∀ c ∈ line, trimmed c = false := by
    intro c member
    have other := plain c member
    simp only [isspace,trimmed,decide_eq_false_iff_not,List.mem_cons,List.not_mem_nil,or_false] at other ⊢
    omega
  have front : line.dropWhile trimmed = line := by
    cases line with
    | nil => rfl
    | cons c rest => rw [List.dropWhile_cons_of_neg (by simp [kept c])]
  have back : line.rdropWhile trimmed = line := by
    rw [List.rdropWhile_eq_self_iff]
    intro nonempty
    simp [kept _ (List.getLast_mem nonempty)]
  rw [clean,front,back,List.filter_eq_self]
  intro c member
  simp [plain c member]

def Entry.unspaced : Entry → Prop
  | address value | replica _ value | mac _ value => CoordinatorConfig.unspaced value
  | roundLength _ => True

theorem lineUnspaced {e : Entry} (plain : e.unspaced) : unspaced e.line := by
  have digits : ∀ n : Nat, unspaced (Nat.toDigits 10 n) :=
    fun _ c member => (digitPlain (digitChars member)).2
  cases e with
  | address value =>
    simp only [unspaced,Entry.line,List.forall_mem_append,List.forall_mem_cons]
    exact ⟨unspacedAll (by decide),by decide,plain⟩
  | replica id value =>
    simp only [unspaced,Entry.line,List.forall_mem_append,List.forall_mem_cons]
    exact ⟨⟨unspacedAll (by decide),digits _⟩,by decide,plain⟩
  | mac id value =>
    simp only [unspaced,Entry.line,List.forall_mem_append,List.forall_mem_cons]
    exact ⟨⟨unspacedAll (by decide),digits _⟩,by decide,plain⟩
  | roundLength ns =>
    simp only [unspaced,Entry.line,List.forall_mem_append,List.forall_mem_cons]
    exact ⟨unspacedAll (by decide),by decide,digits _⟩

theorem sectionPlain (s : Section) :
    unspaced ('[' :: s.name ++ [']']) ∧ blank ('[' :: s.name ++ [']']) = false := by
  cases s with
  | coordinator => exact ⟨unspacedAll (by decide),by decide⟩
  | agent => exact ⟨unspacedAll (by decide),by decide⟩
  | dataplane => exact ⟨unspacedAll (by decide),by decide⟩

theorem spelledDocuments (placed : ∀ block ∈ blocks, ∀ e ∈ block.2, e.within = block.1)
    (complete : (blocks.flatMap Prod.snd : Multiset Entry) = entriesOf c)
    (plain : ∀ e ∈ blocks.flatMap Prod.snd, e.unspaced) : Documents c blocks (spell blocks) := by
  have linePlain : ∀ line ∈ blocks.flatMap Section.lines, unspaced line ∧ blank line = false := by
    intro line member
    obtain ⟨block,inside,held⟩ := List.mem_flatMap.mp member
    rcases List.mem_cons.mp held with rfl | entry
    · exact sectionPlain block.1
    · obtain ⟨e,listed,rfl⟩ := List.mem_map.mp entry
      exact ⟨lineUnspaced (plain e (List.mem_flatMap.mpr ⟨block,inside,listed⟩)),(entryPlain e).1⟩
  have unbroken : ∀ line ∈ blocks.flatMap Section.lines, '\n' ∉ line := by
    intro line member inside
    exact absurd ((linePlain line member).1 _ inside) (by decide)
  have cleaned : (blocks.flatMap Section.lines).map clean = blocks.flatMap Section.lines := by
    simpa using List.map_congr_left (fun line member => cleanSame (linePlain line member).1)
  refine ⟨?_,placed,complete⟩
  rw [spell,getlinesSpelled unbroken,cleaned,List.filter_eq_self]
  intro line member
  simp [(linePlain line member).2]

def twoPlaces (first second : NodeId) (a b : List Char) : Places :=
  (Finmap.insert first a ∅).insert second b

def pairConfig : CoordinatorConfig where
  listenAddress := ['h',':','5']
  nodeAddresses := twoPlaces 0 1 ['a'] ['b','=']
  nodeMacs := twoPlaces 0 1 ['c'] ['d']
  roundLengthNs := 4000

def pairBlocks : List (Section × List Entry) :=
  [(.coordinator,[.address ['h',':','5']]),
    (.agent,[.replica 1 ['b','='],.mac 1 ['d'],.mac 0 ['c'],.replica 0 ['a']]),
    (.dataplane,[.roundLength 4000])]

def pairFile : List Char :=
  "# pair\n [Coordinator]\r\naddress = h:5\n\n[Agent]\n\treplica1 = b=\nmac1=d\n # x\nmac0 = c\nreplica0 =a\n[Dataplane]\nround_length_ns = 4000".toList

theorem twoEntries {first second : NodeId} (apart : second ≠ first) (a b : List Char) :
    (twoPlaces first second a b).entries = ⟨second,b⟩ ::ₘ ⟨first,a⟩ ::ₘ 0 := by
  have fresh : second ∉ (Finmap.insert first a ∅ : Places) := by
    rw [Finmap.mem_insert]
    rintro (same | held)
    · exact apart same
    · exact Finmap.notMem_empty held
  rw [twoPlaces,Finmap.entries_insert_of_notMem fresh,Finmap.entries_insert_of_notMem Finmap.notMem_empty]
  rfl

theorem twoBounded {first second id : NodeId} {a b : List Char} (small : first < 10 ∧ second < 10)
    (held : id ∈ twoPlaces first second a b) : id < 10 := by
  rw [twoPlaces,Finmap.mem_insert,Finmap.mem_insert] at held
  rcases held with rfl | rfl | nowhere
  · exact small.2
  · exact small.1
  · exact absurd nowhere Finmap.notMem_empty

theorem configRoundTripOnce : Documents pairConfig pairBlocks pairFile ∧
    ∃ out, parseConfigFile (some pairFile) {} = .ok (true,out) ∧ SameFile pairConfig out := by
  have complete : (pairBlocks.flatMap Prod.snd : Multiset Entry) = entriesOf pairConfig := by
    rw [entriesOf,show pairConfig.nodeAddresses = twoPlaces 0 1 ['a'] ['b','='] from rfl,
      show pairConfig.nodeMacs = twoPlaces 0 1 ['c'] ['d'] from rfl,twoEntries (by decide),
      twoEntries (by decide)]
    exact Multiset.coe_eq_coe.mpr (by decide)
  have documents : Documents pairConfig pairBlocks pairFile := ⟨by decide +kernel,by decide,complete⟩
  have small : OneDigit pairConfig :=
    ⟨fun _ held => twoBounded ⟨by decide,by decide⟩ held,fun _ held => twoBounded ⟨by decide,by decide⟩ held⟩
  exact ⟨documents,(configRoundTrip documents).mpr small⟩

def elevenConfig : CoordinatorConfig where
  listenAddress := ['h']
  nodeAddresses := twoPlaces 1 10 ['a'] ['b']
  nodeMacs := twoPlaces 1 10 ['c'] ['d']

def elevenBlocks : List (Section × List Entry) :=
  [(.coordinator,[.address ['h']]),
    (.agent,[.replica 1 ['a'],.mac 1 ['c'],.replica 10 ['b'],.mac 10 ['d']]),
    (.dataplane,[.roundLength 2000])]

-- The line of node 10 is read as the address of node 1.
theorem tenReadAsOne : ∃ out, Documents elevenConfig elevenBlocks (spell elevenBlocks) ∧
    parseConfigFile (some (spell elevenBlocks)) {} = .ok (true,out) ∧
    out.nodeAddresses.lookup 1 = some ['b'] ∧ out.nodeAddresses.lookup 10 = none ∧
    ¬ SameFile elevenConfig out := by
  have complete : (elevenBlocks.flatMap Prod.snd : Multiset Entry) = entriesOf elevenConfig := by
    rw [entriesOf,show elevenConfig.nodeAddresses = twoPlaces 1 10 ['a'] ['b'] from rfl,
      show elevenConfig.nodeMacs = twoPlaces 1 10 ['c'] ['d'] from rfl,twoEntries (by decide),
      twoEntries (by decide)]
    exact Multiset.coe_eq_coe.mpr (by decide)
  have documents : Documents elevenConfig elevenBlocks (spell elevenBlocks) :=
    spelledDocuments (by decide) complete (by simp [elevenBlocks,Entry.unspaced,unspaced]; decide)
  have lost : ((elevenBlocks.flatMap Prod.snd).foldl Entry.apply {}).nodeAddresses.lookup 10 = none := by
    decide
  refine ⟨_,documents,documentRead documents,by decide,lost,?_⟩
  intro same
  rw [same.nodeAddresses] at lost
  exact absurd lost (by simp [elevenConfig,twoPlaces])

end RoundTrip

end CoordinatorConfig

end Syncons.Ssr
