import Emergent.Kit.Cuts
import Emergent.Kit.Text

/-!
# Which host the HTTP API answers to (`emergent-engine/src/api_host.rs`)

The bytes the checks look for are ASCII, so they are looked for among the
characters. `Ipv4Addr::from_str` and `Ipv6Addr::from_str` are written out from
their documentation. What `url::Url::parse` reads as the host of a URL is a
parameter, and so is `HeaderValue::to_str`.
-/

namespace Emergent.Engine.ApiHost
open Kit Kit.Text

inductive HostDecision where
  | accept
  | refuse
  deriving Repr, DecidableEq

/-! ### Addresses -/

def isAsciiWhitespace (c : Char) : Bool :=
  c = ' ' || c = '\t' || c = '\n' || c = '\x0c' || c = '\r'

def decimal (digits : List Char) : ℕ := digits.foldl (fun n c => 10 * n + (c.toNat - 48)) 0

def isHexDigit (c : Char) : Bool :=
  c.isDigit || ('a' ≤ c && c ≤ 'f') || ('A' ≤ c && c ≤ 'F')

def canonicalName (name : List Char) : List Char :=
  let lower := name.map Char.toLower
  if lower.getLast? = some '.' then lower.dropLast else lower

/-- One to three digits, at most 255. -/
def isByte (part : List Char) : Bool :=
  !part.isEmpty && part.length ≤ 3 && part.all Char.isDigit && decimal part ≤ 255

def isIpv4 (name : List Char) : Bool :=
  (name.splitOn '.').all isByte && (name.splitOn '.').length = 4

/-- `01` and `007`; `0` has no leading zero. -/
def leadingZero (part : List Char) : Bool := 1 < part.length && part.head? = some '0'

/-- `Ipv4Addr::from_str`: four decimal bytes without leading zeros. -/
def ipv4FromStr (text : List Char) : Bool :=
  (text.splitOn '.').all (fun part => isByte part && !leadingZero part) &&
    (text.splitOn '.').length = 4

def hexGroup (part : List Char) : Bool :=
  !part.isEmpty && part.length ≤ 4 && part.all isHexDigit

/-- The number of sixteen-bit groups between colons; an IPv4 address at the end
is two. -/
def ipv6Groups : List (List Char) → Option ℕ
  | [] => none
  | [part] => if hexGroup part then some 1 else if ipv4FromStr part then some 2 else none
  | part :: parts => if hexGroup part then (ipv6Groups parts).map (· + 1) else none

def ipv6Tail (text : List Char) : Option ℕ :=
  if text.isEmpty then some 0 else ipv6Groups (text.splitOn ':')

def ipv6Head (text : List Char) : Option ℕ :=
  if text.isEmpty then some 0
  else if (text.splitOn ':').all hexGroup then some (text.splitOn ':').length
  else none

def elided (text : List Char) (i : ℕ) : Bool :=
  match text.drop i with
  | ':' :: ':' :: tail =>
    match ipv6Head (text.take i), ipv6Tail tail with
    | some front, some back => front + back ≤ 7
    | _, _ => false
  | _ => false

/-- `Ipv6Addr::from_str`: eight groups, or fewer around one `::`. -/
def ipv6FromStr (text : List Char) : Bool :=
  ipv6Tail text = some 8 || (List.range text.length).any (elided text)

def isBracketedIpv6 : List Char → Bool
  | '[' :: rest =>
    rest.getLast? = some ']' &&
      rest.dropLast.all (fun c => isHexDigit c || c = ':' || c = '.') && ipv6FromStr rest.dropLast
  | _ => false

/-! ### The decision -/

/-- A port is empty, or a colon and digits, of which there may be none. -/
def isPort : List Char → Bool
  | [] => true
  | c :: digits => c = ':' && digits.all Char.isDigit

def plainChar (c : Char) : Bool := !(isAsciiWhitespace c || c = ',' || c = '/' || c = ':')

def hostAndPort (value : List Char) : Option (List Char × List Char) :=
  if ']' ∈ value then
    if value.head? = some '[' then some (upTo ']' value ++ [']'], (onward ']' value).tail)
    else none
  else some (upTo ':' value, onward ':' value)

def hostOf (value : List Char) : Option (List Char) := do
  let (host, port) ← hostAndPort value
  if isPort port then
    if host.head? = some '[' || (!host.isEmpty && host.all plainChar) then
      some (canonicalName host)
    else none
  else none

def decideHost (host : String) (allowed : List String) : HostDecision :=
  match hostOf host.toList with
  | none => .refuse
  | some host =>
    if isIpv4 host || isBracketedIpv6 host || host = "localhost".toList ||
        allowed.contains (String.ofList host) then .accept
    else .refuse

/-! ### The configured names -/

section
variable (urlHost : String → Option String)

def refusedInName (c : Char) : Bool :=
  isAsciiWhitespace c || "/?#@:*,\\[]".toList.contains c

def parseHostName (value : String) : Option String := do
  if value.toList.isEmpty || value.toList.head? = some '-' then none
  else if value.toList.any refusedInName then none
  else
    let parsed ← urlHost ("http://" ++ value ++ "/")
    let host := canonicalName parsed.toList
    if host.isEmpty then none else some (String.ofList host)

def parseAllowedHost (value : String) : Except String String :=
  match parseHostName urlHost value with
  | some host => .ok host
  | none => .error ("Invalid [engine].api_allowed_hosts entry \"" ++ value ++
      "\": expected a host name with no scheme, port or path, such as app.example")

def parseAllowedHostsFrom (hosts : List String) : List String → Except String (List String)
  | [] => .ok hosts
  | value :: values => do
    let host ← parseAllowedHost urlHost value
    parseAllowedHostsFrom (if hosts.contains host then hosts else hosts ++ [host]) values

def parseAllowedHosts (values : List String) : Except String (List String) :=
  parseAllowedHostsFrom urlHost [] values

end

/-- The URL standard forbids brackets in a host, an IPv6 address apart, which is
also written in brackets. -/
def KeepsBrackets (urlHost : String → Option String) : Prop :=
  ∀ url host, urlHost url = some host → '[' ∉ url.toList → '[' ∉ host.toList

/-! ### The grammar -/

def IsPlain (host : List Char) : Prop :=
  host ≠ [] ∧ ∀ c ∈ host, plainChar c = true ∧ c ≠ '[' ∧ c ≠ ']'

/-- A host and an optional port, where the host is a dotted quad by `isQuad`, an
IPv6 address in brackets, `localhost` or one of the names. -/
def NamesHost (isQuad : List Char → Bool) (allowed : List String) (value : String) : Prop :=
  ∃ host port, value.toList = host ++ port ∧ isPort port = true ∧
    ((IsPlain host ∧ (isQuad (canonicalName host) = true ∨
        canonicalName host = "localhost".toList ∨
        String.ofList (canonicalName host) ∈ allowed)) ∨
      ∃ inner, host = '[' :: (inner ++ [']']) ∧ ipv6FromStr (inner.map Char.toLower) = true)

/-- The host is a dotted quad with a leading zero that is not listed as a name. -/
def NamesZeroPaddedQuad (allowed : List String) (value : String) : Prop :=
  ∃ host port, value.toList = host ++ port ∧ isPort port = true ∧ IsPlain host ∧
    isIpv4 (canonicalName host) = true ∧
    (∃ part ∈ (canonicalName host).splitOn '.', leadingZero part = true) ∧
    String.ofList (canonicalName host) ∉ allowed

/-! ### What the addresses are written with -/

theorem toLower_bracket {c d : Char} (hd : d = '[' ∨ d = ']') : c.toLower = d ↔ c = d := by
  constructor
  · intro h
    refine eq_of_toLower_eq (Or.inl ?_) h
    rcases hd with rfl | rfl <;> decide
  · rintro rfl
    rcases hd with rfl | rfl <;> decide

theorem mem_canonicalName {name : List Char} {d : Char} (hd : d = '[' ∨ d = ']') :
    d ∈ canonicalName name ↔ d ∈ name := by
  have hlower : d ∈ name.map Char.toLower ↔ d ∈ name := by
    simp only [List.mem_map, toLower_bracket hd, exists_eq_right]
  unfold canonicalName
  simp only
  split
  · rename_i hlast
    have hsplit := List.dropLast_append_getLast? '.' hlast
    have hdot : d ≠ '.' := by
      rcases hd with rfl | rfl <;> decide
    rw [← hlower, ← hsplit, List.mem_append, List.mem_singleton]
    simp [hdot]
  · exact hlower

theorem canonicalName_bracketed (inner : List Char) :
    canonicalName ('[' :: (inner ++ [']'])) = '[' :: (inner.map Char.toLower ++ [']']) := by
  have hopen : '['.toLower = '[' := by decide
  have hclose : ']'.toLower = ']' := by decide
  have hlast : ('[' :: (inner.map Char.toLower ++ [']'])).getLast? = some ']' := by
    rw [← List.cons_append, List.getLast?_append]
    rfl
  unfold canonicalName
  simp only [List.map_cons, List.map_append, List.map_nil, hopen, hclose, hlast]
  rfl

theorem isIpv4_chars {name : List Char} (h : isIpv4 name = true) {c : Char} (hc : c ∈ name) :
    c = '.' ∨ c.isDigit = true := by
  rcases mem_splitOn hc '.' with hdot | ⟨part, hpart, hin⟩
  · exact Or.inl hdot
  · simp only [isIpv4, Bool.and_eq_true] at h
    have hbyte := List.all_eq_true.mp h.1 part hpart
    simp only [isByte, Bool.and_eq_true] at hbyte
    exact Or.inr (List.all_eq_true.mp hbyte.1.2 c hin)

theorem ipv4FromStr_iff {name : List Char} : ipv4FromStr name = true ↔
    isIpv4 name = true ∧ ∀ part ∈ name.splitOn '.', leadingZero part = false := by
  simp only [ipv4FromStr, isIpv4, Bool.and_eq_true, List.all_eq_true, Bool.not_eq_true']
  constructor
  · rintro ⟨hall, hlen⟩
    exact ⟨⟨fun part hpart => (hall part hpart).1, hlen⟩, fun part hpart => (hall part hpart).2⟩
  · rintro ⟨⟨hall, hlen⟩, hzero⟩
    exact ⟨fun part hpart => ⟨hall part hpart, hzero part hpart⟩, hlen⟩

def isIpv6Char (c : Char) : Bool := isHexDigit c || c = ':' || c = '.'

theorem isIpv6Char_of_digit {c : Char} (h : c.isDigit = true) : isIpv6Char c = true := by
  simp [isIpv6Char, isHexDigit, h]

theorem hexGroup_chars {part : List Char} (h : hexGroup part = true) {c : Char} (hc : c ∈ part) :
    isIpv6Char c = true := by
  simp only [hexGroup, Bool.and_eq_true] at h
  have hhex := List.all_eq_true.mp h.2 c hc
  simp [isIpv6Char, hhex]

theorem ipv4FromStr_chars {part : List Char} (h : ipv4FromStr part = true) {c : Char}
    (hc : c ∈ part) : isIpv6Char c = true := by
  rcases isIpv4_chars (ipv4FromStr_iff.mp h).1 hc with rfl | hdigit
  · decide
  · exact isIpv6Char_of_digit hdigit

theorem ipv6Groups_chars {parts : List (List Char)} {n : ℕ} (h : ipv6Groups parts = some n) :
    ∀ part ∈ parts, ∀ c ∈ part, isIpv6Char c = true := by
  induction parts generalizing n with
  | nil => cases h
  | cons part parts ih =>
    cases parts with
    | nil =>
      intro p hp c hc
      rw [List.mem_singleton.mp hp] at hc
      simp only [ipv6Groups] at h
      split_ifs at h with hhex hquad
      · exact hexGroup_chars hhex hc
      · exact ipv4FromStr_chars hquad hc
    | cons next parts =>
      simp only [ipv6Groups] at h
      split_ifs at h with hhex
      obtain ⟨k, hk, _⟩ := Option.map_eq_some_iff.mp h
      intro p hp c hc
      rcases List.mem_cons.mp hp with rfl | hp
      · exact hexGroup_chars hhex hc
      · exact ih hk p hp c hc

theorem splitOn_chars {text : List Char}
    (h : ∀ part ∈ text.splitOn ':', ∀ c ∈ part, isIpv6Char c = true) {c : Char}
    (hc : c ∈ text) : isIpv6Char c = true := by
  rcases mem_splitOn hc ':' with rfl | ⟨part, hpart, hin⟩
  · decide
  · exact h part hpart c hin

theorem ipv6Tail_chars {text : List Char} {n : ℕ} (h : ipv6Tail text = some n) {c : Char}
    (hc : c ∈ text) : isIpv6Char c = true := by
  unfold ipv6Tail at h
  split_ifs at h with hempty
  · rw [List.isEmpty_iff.mp hempty] at hc
    cases hc
  · exact splitOn_chars (ipv6Groups_chars h) hc

theorem ipv6Head_chars {text : List Char} {n : ℕ} (h : ipv6Head text = some n) {c : Char}
    (hc : c ∈ text) : isIpv6Char c = true := by
  unfold ipv6Head at h
  split_ifs at h with hempty hall
  · rw [List.isEmpty_iff.mp hempty] at hc
    cases hc
  · exact splitOn_chars (fun part hpart _ hin =>
      hexGroup_chars (List.all_eq_true.mp hall part hpart) hin) hc

theorem ipv6FromStr_chars {text : List Char} (h : ipv6FromStr text = true) {c : Char}
    (hc : c ∈ text) : isIpv6Char c = true := by
  simp only [ipv6FromStr, Bool.or_eq_true, decide_eq_true_eq] at h
  rcases h with hfull | helided
  · exact ipv6Tail_chars hfull hc
  · obtain ⟨i, _, hi⟩ := List.any_eq_true.mp helided
    unfold elided at hi
    split at hi
    · rename_i tail hdrop
      split at hi
      · rename_i front back hfront hback
        rw [← List.take_append_drop i text, hdrop] at hc
        rcases List.mem_append.mp hc with hc | hc
        · exact ipv6Head_chars hfront hc
        · rcases List.mem_cons.mp hc with rfl | hc
          · decide
          · rcases List.mem_cons.mp hc with rfl | hc
            · decide
            · exact ipv6Tail_chars hback hc
      · cases hi
    · cases hi

theorem isBracketedIpv6_iff {name : List Char} : isBracketedIpv6 name = true ↔
    ∃ inner, name = '[' :: (inner ++ [']']) ∧ ipv6FromStr inner = true := by
  constructor
  · intro h
    unfold isBracketedIpv6 at h
    split at h
    · rename_i rest
      simp only [Bool.and_eq_true, decide_eq_true_eq] at h
      obtain ⟨⟨hlast, _⟩, hinner⟩ := h
      refine ⟨rest.dropLast, ?_, hinner⟩
      rw [List.dropLast_append_getLast? ']' hlast]
    · cases h
  · rintro ⟨inner, rfl, hinner⟩
    have hchars : inner.all (fun c => isHexDigit c || c = ':' || c = '.') = true :=
      List.all_eq_true.mpr fun c hc => ipv6FromStr_chars hinner hc
    simp [isBracketedIpv6, hchars, hinner]

/-! ### The parser takes the grammar, with its own dotted quads -/

theorem isPort_chars {port : List Char} (h : isPort port = true) {c : Char} (hc : c ∈ port) :
    c = ':' ∨ c.isDigit = true := by
  cases port with
  | nil => cases hc
  | cons d digits =>
    simp only [isPort, Bool.and_eq_true, decide_eq_true_eq] at h
    rcases List.mem_cons.mp hc with rfl | hc
    · exact Or.inl h.1
    · exact Or.inr (List.all_eq_true.mp h.2 c hc)

theorem isPort_startsAt {port : List Char} (h : isPort port = true) : StartsAt ':' port := by
  cases port with
  | nil => exact Or.inl rfl
  | cons d digits =>
    simp only [isPort, Bool.and_eq_true, decide_eq_true_eq] at h
    exact Or.inr ⟨digits, by rw [h.1]⟩

theorem IsPlain.notMem {host : List Char} (h : IsPlain host) : ':' ∉ host ∧ ']' ∉ host := by
  constructor
  · intro hc
    have hplain := (h.2 ':' hc).1
    revert hplain
    decide
  · intro hc
    exact (h.2 ']' hc).2.2 rfl

theorem IsPlain.all {host : List Char} (h : IsPlain host) :
    (!host.isEmpty && host.all plainChar) = true := by
  have hne : host.isEmpty = false := by
    rw [List.isEmpty_eq_false_iff]
    exact h.1
  have hall : host.all plainChar = true := List.all_eq_true.mpr fun c hc => (h.2 c hc).1
  rw [hne, hall]
  rfl

theorem hostAndPort_eq_some {value host port : List Char}
    (h : hostAndPort value = some (host, port)) : value = host ++ port ∧
      ((∃ inner, host = '[' :: (inner ++ [']'])) ∨ ':' ∉ host ∧ ']' ∉ host) := by
  unfold hostAndPort at h
  split_ifs at h with hclose hopen
  · obtain ⟨rfl, rfl⟩ := Prod.mk.inj (Option.some.inj h)
    obtain ⟨after, hafter⟩ := onward_of_mem hclose
    have hvalue := upTo_append_onward ']' value
    rw [hafter] at hvalue
    refine ⟨?_, Or.inl ?_⟩
    · rw [hafter, List.tail_cons, List.append_assoc, List.singleton_append, hvalue]
    · cases hupTo : upTo ']' value with
      | nil =>
        rw [hupTo, List.nil_append] at hvalue
        rw [← hvalue] at hopen
        cases hopen
      | cons c inner =>
        rw [hupTo] at hvalue
        rw [← hvalue] at hopen
        have hc : c = '[' := Option.some.inj hopen
        exact ⟨inner, by rw [hc, List.cons_append]⟩
  · obtain ⟨rfl, rfl⟩ := Prod.mk.inj (Option.some.inj h)
    refine ⟨(upTo_append_onward ':' value).symm, Or.inr ⟨notMem_upTo ':' value, ?_⟩⟩
    intro hc
    have hin : ']' ∈ upTo ':' value ++ onward ':' value := List.mem_append_left _ hc
    rw [upTo_append_onward] at hin
    exact hclose hin

theorem hostOf_eq_some {value name : List Char} (h : hostOf value = some name) :
    ∃ host port, hostAndPort value = some (host, port) ∧ isPort port = true ∧
      (host.head? = some '[' ∨ host ≠ [] ∧ ∀ c ∈ host, plainChar c = true) ∧
      name = canonicalName host := by
  obtain ⟨⟨host, port⟩, hcut, h⟩ := Option.bind_eq_some_iff.mp h
  simp only at h
  split_ifs at h with hport hhost
  refine ⟨host, port, hcut, hport, ?_, (Option.some.inj h).symm⟩
  simpa [List.isEmpty_eq_false_iff] using hhost

theorem hostOf_of_cut {value host port : List Char} (hcut : hostAndPort value = some (host, port))
    (hport : isPort port = true)
    (hhost : host.head? = some '[' ∨ (!host.isEmpty && host.all plainChar) = true) :
    hostOf value = some (canonicalName host) := by
  have hboth : (host.head? = some '[' || (!host.isEmpty && host.all plainChar)) = true := by
    simpa only [Bool.or_eq_true, decide_eq_true_eq] using hhost
  simp only [hostOf, hcut, Option.bind_eq_bind, Option.bind_some, if_pos hport, if_pos hboth]

theorem hostAndPort_plain {host port : List Char} (hhost : IsPlain host)
    (hport : isPort port = true) : hostAndPort (host ++ port) = some (host, port) := by
  have hclose : ']' ∉ host ++ port := by
    intro hmem
    rcases List.mem_append.mp hmem with hmem | hmem
    · exact hhost.notMem.2 hmem
    · rcases isPort_chars hport hmem with hcolon | hdigit
      · cases hcolon
      · revert hdigit
        decide
  have hcut := upTo_append hhost.notMem.1 (isPort_startsAt hport)
  rw [hostAndPort, if_neg hclose, hcut.1, hcut.2]

theorem hostAndPort_bracketed {inner port : List Char} (hinner : ']' ∉ inner) :
    hostAndPort ('[' :: (inner ++ [']']) ++ port) = some ('[' :: (inner ++ [']']), port) := by
  have hvalue : '[' :: (inner ++ [']']) ++ port = ('[' :: inner) ++ ']' :: port := by simp
  have hopen : ']' ∉ '[' :: inner := by
    intro hmem
    rcases List.mem_cons.mp hmem with heq | hmem
    · cases heq
    · exact hinner hmem
  have hcut := upTo_append hopen (Or.inr ⟨port, rfl⟩ : StartsAt ']' (']' :: port))
  have hmem : ']' ∈ ('[' :: inner) ++ ']' :: port := by simp
  rw [hvalue, hostAndPort, if_pos hmem, if_pos (by rfl), hcut.1, hcut.2]
  rfl

section
variable {allowed : List String} {value : String}

/-- Only an address in brackets has a bracket. -/
theorem notMem_of_named (hallowed : ∀ name ∈ allowed, '[' ∉ name.toList) {name : List Char}
    (h : isIpv4 name = true ∨ name = "localhost".toList ∨ String.ofList name ∈ allowed) :
    '[' ∉ name := by
  rcases h with hquad | rfl | hlisted
  · intro hmem
    rcases isIpv4_chars hquad hmem with heq | hdigit
    · cases heq
    · revert hdigit
      decide
  · decide
  · have hfree := hallowed _ hlisted
    rwa [String.toList_ofList] at hfree

theorem decideHost_accept {host : List Char} (h : hostOf value.toList = some host) :
    decideHost value allowed = .accept ↔ isBracketedIpv6 host = true ∨ isIpv4 host = true ∨
      host = "localhost".toList ∨ String.ofList host ∈ allowed := by
  simp only [decideHost, h]
  split_ifs with hknown
  · simp only [Bool.or_eq_true, decide_eq_true_eq, List.contains_iff_mem] at hknown
    tauto
  · simp only [Bool.or_eq_true, decide_eq_true_eq, List.contains_iff_mem] at hknown
    tauto

theorem namesHost_of_accept (hallowed : ∀ name ∈ allowed, '[' ∉ name.toList)
    (h : decideHost value allowed = .accept) : NamesHost isIpv4 allowed value := by
  cases hhost : hostOf value.toList with
  | none =>
    simp only [decideHost, hhost] at h
    cases h
  | some name =>
    obtain ⟨host, port, hcut, hport, hshape, rfl⟩ := hostOf_eq_some hhost
    obtain ⟨hvalue, hkind⟩ := hostAndPort_eq_some hcut
    refine ⟨host, port, hvalue, hport, ?_⟩
    rw [decideHost_accept hhost] at h
    rcases hkind with ⟨inner, rfl⟩ | ⟨_, hclose⟩
    · have hopen : '[' ∈ canonicalName ('[' :: (inner ++ [']'])) :=
        (mem_canonicalName (Or.inl rfl)).mpr List.mem_cons_self
      rcases h with hbracketed | hnamed
      · obtain ⟨lower, hlower, hipv6⟩ := isBracketedIpv6_iff.mp hbracketed
        rw [canonicalName_bracketed] at hlower
        have hsame : inner.map Char.toLower = lower :=
          List.append_cancel_right (List.cons.inj hlower).2
        rw [← hsame] at hipv6
        exact Or.inr ⟨inner, rfl, hipv6⟩
      · exact absurd hopen (notMem_of_named hallowed hnamed)
    · have hnot : ¬ isBracketedIpv6 (canonicalName host) = true := by
        intro hbracketed
        obtain ⟨lower, hlower, _⟩ := isBracketedIpv6_iff.mp hbracketed
        have hmem : ']' ∈ canonicalName host := by
          rw [hlower]
          simp
        exact hclose ((mem_canonicalName (Or.inr rfl)).mp hmem)
      have hnamed := h.resolve_left hnot
      have hopen : '[' ∉ host := by
        intro hmem
        exact notMem_of_named hallowed hnamed ((mem_canonicalName (Or.inl rfl)).mpr hmem)
      rcases hshape with hhead | ⟨hne, hplain⟩
      · exact absurd (List.mem_of_mem_head? hhead) hopen
      · refine Or.inl ⟨⟨hne, fun c hc => ⟨hplain c hc, ?_, ?_⟩⟩, hnamed⟩
        · rintro rfl
          exact hopen hc
        · rintro rfl
          exact hclose hc

theorem accept_of_namesHost (h : NamesHost isIpv4 allowed value) :
    decideHost value allowed = .accept := by
  obtain ⟨host, port, hvalue, hport, ⟨hplain, hnamed⟩ | ⟨inner, rfl, hipv6⟩⟩ := h
  · have hhost : hostOf value.toList = some (canonicalName host) := by
      rw [hvalue]
      exact hostOf_of_cut (hostAndPort_plain hplain hport) hport (Or.inr hplain.all)
    exact (decideHost_accept hhost).mpr (Or.inr hnamed)
  · have hclose : ']' ∉ inner := by
      intro hmem
      have hlower : ']' ∈ inner.map Char.toLower :=
        List.mem_map.mpr ⟨']', hmem, by decide⟩
      have hchar := ipv6FromStr_chars hipv6 hlower
      revert hchar
      decide
    have hhost : hostOf value.toList = some (canonicalName ('[' :: (inner ++ [']']))) := by
      rw [hvalue]
      exact hostOf_of_cut (hostAndPort_bracketed hclose) hport (Or.inl rfl)
    rw [decideHost_accept hhost, canonicalName_bracketed]
    exact Or.inl (isBracketedIpv6_iff.mpr ⟨_, rfl, hipv6⟩)

/-! ### The dotted quads of the standard library -/

/-- A plain host ends at the first colon, so there is one way to read it. -/
theorem plain_split_unique {host host' port port' : List Char} (hhost : IsPlain host)
    (hhost' : IsPlain host') (hport : isPort port = true) (hport' : isPort port' = true)
    (h : host ++ port = host' ++ port') : host = host' := by
  have hcut := hostAndPort_plain hhost hport
  rw [h, hostAndPort_plain hhost' hport'] at hcut
  exact (congrArg Prod.fst (Option.some.inj hcut)).symm

theorem NamesHost.strict (h : NamesHost isIpv4 allowed value)
    (hquad : ¬ NamesZeroPaddedQuad allowed value) : NamesHost ipv4FromStr allowed value := by
  obtain ⟨host, port, hvalue, hport, ⟨hplain, hipv4 | hnamed⟩ | hipv6⟩ := h
  · by_cases hlisted : String.ofList (canonicalName host) ∈ allowed
    · exact ⟨host, port, hvalue, hport, Or.inl ⟨hplain, Or.inr (Or.inr hlisted)⟩⟩
    · have hzero : ∀ part ∈ (canonicalName host).splitOn '.', leadingZero part = false := by
        intro part hpart
        by_contra hzero
        rw [Bool.not_eq_false] at hzero
        exact hquad ⟨host, port, hvalue, hport, hplain, hipv4, ⟨part, hpart, hzero⟩, hlisted⟩
      exact ⟨host, port, hvalue, hport,
        Or.inl ⟨hplain, Or.inl (ipv4FromStr_iff.mpr ⟨hipv4, hzero⟩)⟩⟩
  · exact ⟨host, port, hvalue, hport, Or.inl ⟨hplain, Or.inr hnamed⟩⟩
  · exact ⟨host, port, hvalue, hport, Or.inr hipv6⟩

theorem NamesHost.loose (h : NamesHost ipv4FromStr allowed value) :
    NamesHost isIpv4 allowed value := by
  obtain ⟨host, port, hvalue, hport, ⟨hplain, hipv4 | hnamed⟩ | hipv6⟩ := h
  · exact ⟨host, port, hvalue, hport,
      Or.inl ⟨hplain, Or.inl (ipv4FromStr_iff.mp hipv4).1⟩⟩
  · exact ⟨host, port, hvalue, hport, Or.inl ⟨hplain, Or.inr hnamed⟩⟩
  · exact ⟨host, port, hvalue, hport, Or.inr hipv6⟩

theorem NamesZeroPaddedQuad.accepted (h : NamesZeroPaddedQuad allowed value) :
    decideHost value allowed = .accept := by
  obtain ⟨host, port, hvalue, hport, hplain, hipv4, _⟩ := h
  exact accept_of_namesHost ⟨host, port, hvalue, hport, Or.inl ⟨hplain, Or.inl hipv4⟩⟩

theorem NamesZeroPaddedQuad.outside (h : NamesZeroPaddedQuad allowed value) :
    ¬ NamesHost ipv4FromStr allowed value := by
  obtain ⟨host, port, hvalue, hport, hplain, hipv4, ⟨part, hpart, hzero⟩, hlisted⟩ := h
  rintro ⟨host', port', hvalue', hport', ⟨hplain', hnamed⟩ | ⟨inner, rfl, _⟩⟩
  · have hsame : host' = host :=
      plain_split_unique hplain' hplain hport' hport (hvalue'.symm.trans hvalue)
    rw [hsame] at hnamed
    rcases hnamed with hstrict | hlocal | hlist
    · rw [(ipv4FromStr_iff.mp hstrict).2 part hpart] at hzero
      cases hzero
    · rw [hlocal] at hipv4
      revert hipv4
      decide
    · exact hlisted hlist
  · have hhead : (host ++ port).head? = some '[' := by
      rw [← hvalue, hvalue']
      rfl
    rw [List.head?_append_of_ne_nil _ hplain.1] at hhead
    exact (hplain.2 '[' (List.mem_of_mem_head? hhead)).2.1 rfl

end

/-! ### What the configuration can list -/

section
variable {urlHost : String → Option String}

theorem parseHostName_eq_some (hurl : KeepsBrackets urlHost) {value host : String}
    (h : parseHostName urlHost value = some host) : '[' ∉ host.toList := by
  unfold parseHostName at h
  split_ifs at h with hempty hchars
  obtain ⟨parsed, hparsed, h⟩ := Option.bind_eq_some_iff.mp h
  simp only at h
  split_ifs at h
  have hvalue : '[' ∉ value.toList := by
    intro hmem
    exact hchars (List.any_eq_true.mpr ⟨'[', hmem, by decide⟩)
  have hbefore : '[' ∉ "http://".toList := by decide
  have hafter : '[' ∉ "/".toList := by decide
  have htext : '[' ∉ ("http://" ++ value ++ "/").toList := by
    rw [String.toList_append, String.toList_append, List.mem_append, List.mem_append]
    tauto
  have hfree := hurl _ _ hparsed htext
  rw [← Option.some.inj h, String.toList_ofList, mem_canonicalName (Or.inl rfl)]
  exact hfree

theorem parseAllowedHostsFrom_free (hurl : KeepsBrackets urlHost) {values : List String} :
    ∀ {hosts allowed : List String}, (∀ name ∈ hosts, '[' ∉ name.toList) →
      parseAllowedHostsFrom urlHost hosts values = .ok allowed →
      ∀ name ∈ allowed, '[' ∉ name.toList := by
  induction values with
  | nil =>
    intro hosts allowed hhosts h
    rw [← Except.ok.inj h]
    exact hhosts
  | cons value values ih =>
    intro hosts allowed hhosts h
    rw [parseAllowedHostsFrom] at h
    cases hname : parseHostName urlHost value with
    | none =>
      simp only [parseAllowedHost, hname] at h
      cases h
    | some host =>
      simp only [parseAllowedHost, hname] at h
      refine ih ?_ h
      intro name hmem
      split_ifs at hmem with hknown
      · exact hhosts name hmem
      · rcases List.mem_append.mp hmem with hmem | hmem
        · exact hhosts name hmem
        · rw [List.mem_singleton.mp hmem]
          exact parseHostName_eq_some hurl hname

/-- A value is accepted exactly when it is in the grammar, unless it names a
dotted quad with a leading zero, which `Ipv4Addr::from_str` does not read. -/
theorem decideHost_grammar_iff (hurl : KeepsBrackets urlHost) {values allowed : List String}
    (hallowed : parseAllowedHosts urlHost values = .ok allowed) (value : String) :
    (decideHost value allowed = .accept ↔ NamesHost ipv4FromStr allowed value) ↔
      ¬ NamesZeroPaddedQuad allowed value := by
  have hfree := parseAllowedHostsFrom_free hurl (fun _ h => (by cases h)) hallowed
  constructor
  · intro h hquad
    exact hquad.outside (h.mp hquad.accepted)
  · intro hquad
    constructor
    · intro haccept
      exact (namesHost_of_accept hfree haccept).strict hquad
    · intro hgrammar
      exact accept_of_namesHost hgrammar.loose

def exampleUrlHost (url : String) : Option String :=
  if url = "http://App.Example/" then some "app.example" else none

theorem exampleUrlHost_keepsBrackets : KeepsBrackets exampleUrlHost := by
  intro url host h _
  unfold exampleUrlHost at h
  split_ifs at h
  rw [← Option.some.inj h]
  decide

theorem not_zeroPadded_listed :
    ¬ NamesZeroPaddedQuad ["app.example"] "App.Example.:8080" := by
  intro h
  obtain ⟨host, port, hvalue, hport, hplain, hipv4, _⟩ := h
  have hcut := hostAndPort_plain hplain hport
  rw [← hvalue] at hcut
  have hknown : hostAndPort "App.Example.:8080".toList =
      some ("App.Example.".toList, ":8080".toList) := by decide
  rw [hknown] at hcut
  have hhost : "App.Example.".toList = host := congrArg Prod.fst (Option.some.inj hcut)
  rw [← hhost] at hipv4
  revert hipv4
  decide

theorem decideHost_grammar_listed :
    parseAllowedHosts exampleUrlHost ["App.Example"] = .ok ["app.example"] ∧
      (decideHost "App.Example.:8080" ["app.example"] = .accept ↔
        NamesHost ipv4FromStr ["app.example"] "App.Example.:8080") ∧
      decideHost "App.Example.:8080" ["app.example"] = .accept := by
  have hallowed : parseAllowedHosts exampleUrlHost ["App.Example"] = .ok ["app.example"] := by
    decide
  exact ⟨hallowed, (decideHost_grammar_iff exampleUrlHost_keepsBrackets hallowed _).mpr
    not_zeroPadded_listed, by decide⟩

/-- Elsewhere the last byte of this host is an octal number. -/
theorem decideHost_zero_padded :
    parseAllowedHosts exampleUrlHost [] = .ok [] ∧ decideHost "127.0.0.01" [] = .accept ∧
      ¬ NamesHost ipv4FromStr [] "127.0.0.01" := by
  have hchars : ("127.0.0.01".toList.all fun c => plainChar c && c != '[' && c != ']') = true := by
    decide
  have hplain : IsPlain "127.0.0.01".toList := by
    refine ⟨by decide, fun c hc => ?_⟩
    simpa [and_assoc] using List.all_eq_true.mp hchars c hc
  have hquad : NamesZeroPaddedQuad [] "127.0.0.01" :=
    ⟨"127.0.0.01".toList, [], by decide, by decide, hplain, by decide,
      ⟨['0', '1'], by decide, by decide⟩, by decide⟩
  exact ⟨rfl, hquad.accepted, hquad.outside⟩

end

/-! ### The whole request -/

def decideRequestHost (hostHeaders : List String) (authority : Option String)
    (allowed : List String) : HostDecision :=
  if 1 < hostHeaders.length then .refuse
  else
    let named := hostHeaders ++ authority.toList
    if named.any (fun host => decideHost host allowed = .refuse) then .refuse
    else if named.isEmpty then .refuse
    else .accept

/-- What the guard reads of a request: each value of a `Host` header, and the
authority of its URI. -/
structure ApiRequest where
  hostValues : List (List UInt8)
  authority : Option String
  deriving DecidableEq

inductive Guarded where
  | next
  | misdirected (status : ℕ) (contentType body : String)
  deriving Repr, DecidableEq

def misdirectedBody : String :=
  "Misdirected Request: this server does not answer to the host name in the " ++
    "request. If the name is its own, list it in [engine].api_allowed_hosts.\n"

section
variable (toStr : List UInt8 → Option String) (allowed : List String)

def guardHost (request : ApiRequest) : Guarded :=
  let headers := request.hostValues.filterMap toStr
  if decideRequestHost headers request.authority allowed = .accept then .next
  else .misdirected 421 "text/plain; charset=utf-8" misdirectedBody

/-- One `Host` value, or none and an authority, and every host named is this
server's. -/
def NamesOneOwnHost (request : ApiRequest) : Prop :=
  (request.hostValues.length = 1 ∨
    request.hostValues = [] ∧ request.authority.isSome = true) ∧
  (∀ value ∈ request.hostValues, ∃ host, toStr value = some host ∧
    decideHost host allowed = .accept) ∧
  ∀ host ∈ request.authority, decideHost host allowed = .accept

/-- A `Host` value that is no text stands beside one host of this server's. -/
def HidesHost (request : ApiRequest) : Prop :=
  (∃ value ∈ request.hostValues, toStr value = none) ∧
  (request.hostValues.filterMap toStr).length ≤ 1 ∧
  (request.hostValues.filterMap toStr ≠ [] ∨ request.authority.isSome = true) ∧
  (∀ host ∈ request.hostValues.filterMap toStr, decideHost host allowed = .accept) ∧
  ∀ host ∈ request.authority, decideHost host allowed = .accept

end

theorem decideRequestHost_accept_iff {hostHeaders allowed : List String}
    {authority : Option String} :
    decideRequestHost hostHeaders authority allowed = .accept ↔
      hostHeaders.length ≤ 1 ∧ (hostHeaders ≠ [] ∨ authority.isSome = true) ∧
        (∀ host ∈ hostHeaders, decideHost host allowed = .accept) ∧
        ∀ host ∈ authority, decideHost host allowed = .accept := by
  have haccept : ∀ host, ¬ decideHost host allowed = .refuse ↔
      decideHost host allowed = .accept := by
    intro host
    cases decideHost host allowed <;> simp
  have hempty : hostHeaders ++ authority.toList = [] ↔
      ¬ (hostHeaders ≠ [] ∨ authority.isSome = true) := by
    cases authority <;> simp
  simp only [decideRequestHost]
  split_ifs with hmany hrefused hnone
  · constructor
    · intro h
      cases h
    · intro h
      omega
  · constructor
    · intro h
      cases h
    · rintro ⟨_, _, hheaders, hauthority⟩
      obtain ⟨host, hmem, hrefuse⟩ := List.any_eq_true.mp hrefused
      have hnot : ¬ decideHost host allowed = .accept := by
        rw [← haccept, not_not]
        exact of_decide_eq_true hrefuse
      rcases List.mem_append.mp hmem with hmem | hmem
      · exact absurd (hheaders host hmem) hnot
      · exact absurd (hauthority host (Option.mem_toList.mp hmem)) hnot
  · constructor
    · intro h
      cases h
    · rintro ⟨_, hsome, _⟩
      exact absurd hsome (hempty.mp (List.isEmpty_iff.mp hnone))
  · have hall : ∀ host ∈ hostHeaders ++ authority.toList, decideHost host allowed = .accept := by
      intro host hmem
      rw [← haccept]
      intro hrefuse
      exact hrefused (List.any_eq_true.mpr ⟨host, hmem, decide_eq_true hrefuse⟩)
    refine ⟨fun _ => ⟨by omega, ?_, fun host hmem => ?_, fun host hmem => ?_⟩, fun _ => rfl⟩
    · by_contra hnot
      exact hnone (List.isEmpty_iff.mpr (hempty.mpr hnot))
    · exact hall host (List.mem_append_left _ hmem)
    · exact hall host (List.mem_append_right _ (Option.mem_toList.mpr hmem))

section
variable {toStr : List UInt8 → Option String} {allowed : List String} {request : ApiRequest}

theorem guardHost_next_iff : guardHost toStr allowed request = .next ↔
    decideRequestHost (request.hostValues.filterMap toStr) request.authority allowed =
      .accept := by
  unfold guardHost
  simp only
  split_ifs with h
  · exact ⟨fun _ => h, fun _ => rfl⟩
  · constructor
    · intro hnext
      cases hnext
    · intro haccept
      exact absurd haccept h

/-- Where every value is a text, none is left out of the decision. -/
theorem filterMap_length {values : List (List UInt8)} (h : ∀ value ∈ values, toStr value ≠ none) :
    (values.filterMap toStr).length = values.length := by
  induction values with
  | nil => rfl
  | cons value values ih =>
    have hrest := ih fun v hv => h v (List.mem_cons_of_mem _ hv)
    cases hvalue : toStr value with
    | none => exact absurd hvalue (h value List.mem_cons_self)
    | some host => rw [List.filterMap_cons_some hvalue, List.length_cons, List.length_cons, hrest]

/-- A request that is passed on names one host and only hosts of this server's,
unless a value that is no text is hidden beside one. -/
theorem guardHost_own_iff (toStr : List UInt8 → Option String) (allowed : List String)
    (request : ApiRequest) :
    (guardHost toStr allowed request = .next → NamesOneOwnHost toStr allowed request) ↔
      ¬ HidesHost toStr allowed request := by
  rw [guardHost_next_iff, decideRequestHost_accept_iff]
  constructor
  · rintro h ⟨⟨value, hvalue, hunread⟩, hpassed⟩
    obtain ⟨host, hread, _⟩ := (h hpassed).2.1 value hvalue
    rw [hunread] at hread
    cases hread
  · intro hhides hpassed
    have hread : ∀ value ∈ request.hostValues, toStr value ≠ none := by
      intro value hvalue hunread
      exact hhides ⟨⟨value, hvalue, hunread⟩, hpassed⟩
    have hlength := filterMap_length hread
    obtain ⟨hone, hsome, hheaders, hauthority⟩ := hpassed
    refine ⟨?_, ?_, hauthority⟩
    · cases hvalues : request.hostValues with
      | nil =>
        rw [hvalues] at hsome
        exact Or.inr ⟨rfl, by simpa using hsome⟩
      | cons value values =>
        rw [hlength, hvalues] at hone
        have hnil : values = [] := by
          rw [List.length_cons] at hone
          exact List.length_eq_zero_iff.mp (by omega)
        exact Or.inl (by rw [hnil]; rfl)
    · intro value hvalue
      obtain ⟨host, hhost⟩ := Option.ne_none_iff_exists'.mp (hread value hvalue)
      exact ⟨host, hhost, hheaders host (List.mem_filterMap.mpr ⟨value, hvalue, hhost⟩)⟩

end

/-- `HeaderValue::to_str`: visible ASCII characters and the tab. -/
def headerToStr (value : List UInt8) : Option String :=
  if value.all fun b => (32 ≤ b && b < 127) || b = 9 then
    some (String.ofList (value.map fun b => Char.ofNat b.toNat))
  else none

def headerBytes (text : String) : List UInt8 := text.toList.map fun c => UInt8.ofNat c.toNat

/-- `attacker.example` and a byte outside ASCII, before a `Host` of `localhost`. -/
def twoHostsRequest : ApiRequest :=
  ⟨[headerBytes "attacker.example" ++ [255], headerBytes "localhost"], none⟩

theorem guardHost_passes_two_hosts :
    guardHost headerToStr [] twoHostsRequest = .next ∧
      twoHostsRequest.hostValues.length = 2 ∧
      ¬ (guardHost headerToStr [] twoHostsRequest = .next →
        NamesOneOwnHost headerToStr [] twoHostsRequest) := by
  have hnext : guardHost headerToStr [] twoHostsRequest = .next := by decide
  refine ⟨hnext, rfl, ?_⟩
  intro h
  rcases (h hnext).1 with hone | hnone
  · cases hone
  · cases hnone.1

end Emergent.Engine.ApiHost
