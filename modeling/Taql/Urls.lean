import Taql.JavaScript

/-! URLs as the URL standard has them, as far as scheme, host and port go, and the
setters of these. Hosts are parsed by a function that is given: it knows domains,
addresses and their spellings. Nothing here names a service. -/
namespace Taql.Urls
open JavaScript

def schemeChar (char : Char) : Bool := char.isLower || char.isDigit || ['+', '-', '.'].contains char

/-- A letter, then letters, digits and three signs, in lower case. -/
def validScheme : List Char → Bool
  | [] => false
  | first :: rest => first.isLower && rest.all schemeChar

def defaultPort : String → Option Nat
  | "http" | "ws" => some 80
  | "https" | "wss" => some 443
  | "ftp" => some 21
  | _ => none

def special (scheme : String) : Bool := ["http", "https", "ws", "wss", "ftp", "file"].contains scheme

theorem noPort_range (value : Nat) (never : none = some value) : value < 65536 :=
  (Option.some_ne_none _ never.symm).elim

theorem noPort_stray (scheme : String) (value : Nat) (never : none = some value) : defaultPort scheme ≠ some value :=
  (Option.some_ne_none _ never.symm).elim

/-- A port is kept only where it is not the default of the scheme. -/
@[ext] structure Url where
  scheme : String
  host : Option String
  port : Option Nat
  credentials : Bool
  cannotBeABase : Bool
  pathname : String
  grammar : validScheme scheme.toList = true
  portRange : ∀ value, port = some value → value < 65536
  portStray : ∀ value, port = some value → defaultPort scheme ≠ some value

namespace Url

/-- `url.hostname`, empty without a host. -/
def hostname (url : Url) : String := url.host.getD ""

/-- `url.port`, empty for the default. -/
def portText (url : Url) : String := url.port.elim "" toString

/-- `url.protocol`, the scheme and a colon. -/
def protocol (url : Url) : String := url.scheme ++ ":"

/-- The port a connection is made to. -/
def effectivePort (url : Url) : Option Nat := url.port.or (defaultPort url.scheme)

/-- A connection to the other URL goes to the same place in the same way. -/
structure SameService (url other : Url) : Prop where
  hostname : other.hostname = url.hostname
  effectivePort : other.effectivePort = url.effectivePort
  protocol : other.protocol = url.protocol

def cannotHavePort (url : Url) : Bool := url.hostname = "" || url.scheme = "file"

/-- How a host is read from a value, in a URL of some scheme; none if it is refused. -/
abbrev HostParser := String → String → Option String

/-- `url.hostname = value`. -/
def setHostname (hosts : HostParser) (url : Url) (value : String) : Url :=
  if url.cannotBeABase then url
  else
    match hosts url.scheme value with
    | none => url
    | some host => if host = "" && (url.credentials || url.port.isSome) then url else { url with host := some host }

def blanks : List Char := ['\t', '\n', '\r']

/-- Tabs and line ends are dropped from what is parsed. -/
def stripped (value : String) : List Char := value.toList.filter fun char => !blanks.contains char

def withoutPort (url : Url) : Url :=
  { url with
    port := none
    portRange := noPort_range
    portStray := noPort_stray url.scheme }

/-- `url.port = value`: digits up to the first other character. -/
def setPort (url : Url) (value : String) : Url :=
  if url.cannotHavePort then url
  else if value = "" then url.withoutPort
  else
    let digits := (stripped value).takeWhile Char.isDigit
    let number := Nat.ofDigitChars 10 digits 0
    if digits = [] then url
    else if inRange : number < 65536 then
      if stray : defaultPort url.scheme ≠ some number then
        { url with
          port := some number
          portRange := fun _ is => Option.some.inj is ▸ inRange
          portStray := fun _ is => Option.some.inj is ▸ stray }
      else url.withoutPort
    else url

/-- What a new scheme must agree with. -/
def admits (url : Url) (scheme : String) : Bool :=
  special url.scheme == special scheme && !(scheme = "file" && (url.credentials || url.port.isSome)) &&
    !(url.scheme = "file" && url.hostname = "")

/-- `url.protocol = value`: the scheme up to the first colon, if it is one. -/
def setProtocol (url : Url) (value : String) : Url :=
  let scheme := ((stripped value).takeWhile fun char => char ≠ ':').map Char.toLower
  if grammar : validScheme scheme = true then
    if url.admits (String.ofList scheme) then
      { url with
        scheme := String.ofList scheme
        port := if url.port = defaultPort (String.ofList scheme) then none else url.port
        grammar := by rwa [String.toList_ofList]
        portRange := fun value is => url.portRange value (by split at is <;> simp_all)
        portStray := fun value is => by
          split at is
          · cases is
          · rename_i differs
            rw [← is]
            exact Ne.symm differs }
    else url
  else url

/-- `url.pathname = ''`. -/
def clearPathname (url : Url) : Url :=
  if url.cannotBeABase then url
  else { url with pathname := if special url.scheme || url.host.isNone then "/" else "" }

theorem protocol_eq_iff (url : Url) (scheme : String) : url.protocol = scheme ++ ":" ↔ url.scheme = scheme := by
  unfold protocol
  rw [← String.toList_inj, ← String.toList_inj, String.toList_append, String.toList_append, List.append_left_inj]

/-! ### Setting what is there -/

@[simp] theorem scheme_setHostname (hosts : HostParser) (url : Url) (value : String) :
    (url.setHostname hosts value).scheme = url.scheme := by
  unfold setHostname
  repeat' split
  all_goals rfl

@[simp] theorem port_setHostname (hosts : HostParser) (url : Url) (value : String) :
    (url.setHostname hosts value).port = url.port := by
  unfold setHostname
  repeat' split
  all_goals rfl

@[simp] theorem scheme_setPort (url : Url) (value : String) : (url.setPort value).scheme = url.scheme := by
  unfold setPort withoutPort
  dsimp only
  repeat' split
  all_goals rfl

@[simp] theorem host_setPort (url : Url) (value : String) : (url.setPort value).host = url.host := by
  unfold setPort withoutPort
  dsimp only
  repeat' split
  all_goals rfl

@[simp] theorem clearPathname_scheme (url : Url) : url.clearPathname.scheme = url.scheme := by
  unfold clearPathname
  split <;> rfl

@[simp] theorem clearPathname_host (url : Url) : url.clearPathname.host = url.host := by
  unfold clearPathname
  split <;> rfl

@[simp] theorem clearPathname_port (url : Url) : url.clearPathname.port = url.port := by
  unfold clearPathname
  split <;> rfl

/-- The host of a URL is what its text parses to. -/
def Parsed (hosts : HostParser) (url : Url) : Prop :=
  url.cannotBeABase = false → hosts url.scheme url.hostname = some url.hostname

theorem hostname_setHostname_own {hosts : HostParser} {url : Url} (parsed : url.Parsed hosts) :
    (url.setHostname hosts url.hostname).hostname = url.hostname := by
  unfold setHostname
  split
  · rfl
  · rename_i base
    rw [parsed (Bool.eq_false_iff.mpr base)]
    dsimp only
    split <;> rfl

theorem schemeChar_of_mem (url : Url) {char : Char} (member : char ∈ url.scheme.toList) : schemeChar char = true := by
  have grammar := url.grammar
  cases chars : url.scheme.toList with
  | nil =>
    rw [chars] at member
    cases member
  | cons first rest =>
    rw [chars] at grammar member
    simp only [validScheme, Bool.and_eq_true, List.all_eq_true] at grammar
    rcases List.mem_cons.mp member with rfl | member
    · simp [schemeChar, grammar.1]
    · exact grammar.2 char member

theorem colon_notMem_scheme (url : Url) : ':' ∉ url.scheme.toList :=
  fun member => absurd (schemeChar_of_mem url member) (by decide)

private theorem toLower_schemeChar {char : Char} (plain : schemeChar char = true) : char.toLower = char := by
  unfold Char.toLower
  refine dif_neg fun upper => ?_
  have least : 65 ≤ char.val.toNat := upper.1
  have most : char.val.toNat ≤ 90 := upper.2
  simp only [schemeChar, Bool.or_eq_true, List.contains_iff_mem] at plain
  rcases plain with (lower | digit) | sign
  · have above : 97 ≤ char.val.toNat := of_decide_eq_true (Bool.and_eq_true_iff.mp lower).1
    omega
  · have below : char.val.toNat ≤ 57 := of_decide_eq_true (Bool.and_eq_true_iff.mp digit).2
    omega
  · simp only [List.mem_cons, List.not_mem_nil, or_false] at sign
    rcases sign with rfl | rfl | rfl <;> contradiction

private theorem blank_notScheme : ∀ char ∈ blanks, schemeChar char = false ∧ char ≠ ':' := by
  intro char member
  simp only [blanks, List.mem_cons, List.not_mem_nil, or_false] at member
  rcases member with rfl | rfl | rfl <;> decide

private theorem stripped_protocol (url : Url) : stripped url.protocol = url.scheme.toList ++ [':'] := by
  unfold stripped protocol
  rw [String.toList_append]
  refine List.filter_eq_self.mpr fun char member => ?_
  by_contra blank
  have listed : char ∈ blanks := by
    rwa [Bool.not_eq_true, Bool.not_eq_false', List.contains_iff_mem] at blank
  rcases List.mem_append.mp member with member | member
  · exact absurd (schemeChar_of_mem url member) (by simp [(blank_notScheme char listed).1])
  · exact (blank_notScheme char listed).2 (by simpa using member)

/-- A URL that is given its own protocol stays as it is. -/
theorem setProtocol_own (url : Url) : url.setProtocol url.protocol = url := by
  have scheme : ((stripped url.protocol).takeWhile fun char => char ≠ ':').map Char.toLower = url.scheme.toList := by
    have before : ∀ char ∈ url.scheme.toList, decide (char ≠ ':') = true := fun char member =>
      decide_eq_true fun colon => colon_notMem_scheme url (colon ▸ member)
    rw [stripped_protocol, List.takeWhile_append_of_pos before, List.takeWhile_cons_of_neg (by simp),
      List.append_nil]
    exact (List.map_congr_left fun char member =>
      toLower_schemeChar (schemeChar_of_mem url member)).trans (List.map_id _)
  have port : (if url.port = defaultPort url.scheme then none else url.port) = url.port := by
    split
    · rename_i default
      cases held : url.port with
      | none => rfl
      | some value => exact absurd (default.symm.trans held) (url.portStray value held)
    · rfl
  unfold setProtocol
  simp only [scheme, url.grammar, String.ofList_toList, port]
  repeat' split
  all_goals rfl

theorem digits_toString (value : Nat) {char : Char} (member : char ∈ (toString value).toList) :
    char.isDigit = true := by
  rw [Nat.toString_eq_ofList_toDigits, String.toList_ofList] at member
  exact Nat.isDigit_of_mem_toDigits (by decide) (by decide) member

private theorem blank_notDigit : ∀ char ∈ blanks, char.isDigit = false := by
  intro char member
  simp only [blanks, List.mem_cons, List.not_mem_nil, or_false] at member
  rcases member with rfl | rfl | rfl <;> decide

theorem toString_ne_empty (value : Nat) : toString value ≠ "" := by
  rw [Nat.toString_eq_ofList_toDigits]
  intro empty
  exact Nat.toDigits_ne_nil (String.toList_inj.mpr empty ▸ String.toList_ofList.symm)

/-- A port that is set to a number in range is that number, or the default. -/
theorem port_setPort (url : Url) {value : Nat} (inRange : value < 65536) :
    (url.setPort (toString value)).port =
      if url.cannotHavePort then url.port else if defaultPort url.scheme = some value then none else some value := by
  have kept : stripped (toString value) = (toString value).toList := by
    refine List.filter_eq_self.mpr fun char member => ?_
    by_contra blank
    have listed : char ∈ blanks := by
      rwa [Bool.not_eq_true, Bool.not_eq_false', List.contains_iff_mem] at blank
    exact absurd (digits_toString value member) (by simp [blank_notDigit char listed])
  have digits : (stripped (toString value)).takeWhile Char.isDigit = Nat.toDigits 10 value := by
    rw [kept, ← List.append_nil (toString value).toList,
      List.takeWhile_append_of_pos fun char member => digits_toString value member, List.takeWhile_nil,
      List.append_nil, Nat.toString_eq_ofList_toDigits, String.toList_ofList]
  unfold setPort
  simp only [if_neg (toString_ne_empty value), digits, if_neg Nat.toDigits_ne_nil, Nat.ofDigitChars_ten_toDigits,
    dif_pos inRange]
  split
  · rfl
  · by_cases default : defaultPort url.scheme = some value
    · rw [dif_neg (not_not.mpr default), if_pos default]
      rfl
    · rw [dif_pos default, if_neg default]

/-- A URL that is given its own port stays as it is. -/
theorem setPort_own (url : Url) : url.setPort url.portText = url := by
  cases held : url.port with
  | none =>
    have text : url.portText = "" := by rw [portText, held, Option.elim_none]
    unfold setPort
    rw [text, if_pos rfl]
    split
    · rfl
    · exact Url.ext rfl rfl held.symm rfl rfl rfl
  | some value =>
    have text : url.portText = toString value := by rw [portText, held, Option.elim_some]
    have port := port_setPort url (url.portRange value held)
    rw [← text, if_neg (url.portStray value held), held, ite_self] at port
    refine Url.ext (scheme_setPort _ _) (host_setPort _ _) (port.trans held.symm) ?_ ?_ ?_
    all_goals
      unfold setPort withoutPort
      dsimp only
      repeat' split
      all_goals rfl

end Url

end Taql.Urls
