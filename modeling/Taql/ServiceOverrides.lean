import Mathlib.Data.List.TakeWhile
import Taql.Urls

/-! `packages/server/src/useSvco.ts` and `packages/schema/src/legacy.ts`: a list of
service overrides is read twice, once to tell whether it may change the stitched
schema, and once for where it puts the legacy subgraph. -/
namespace Taql.ServiceOverrides
open JavaScript Urls

/-- What is used of a manifest's entry. -/
structure Subgraph where
  name : String
  url : Url

/-- The subgraph `getNonStitchedRoles` looks at. -/
def legacySubgraph (manifest : List Subgraph) : Option Subgraph :=
  (manifest.filter fun sg => sg.name = "legacy-graphql").getLast?

/-- `legacyUrl.port || (legacyUrl.protocol == 'http:' ? 80 : 443)`, as it is written
into a role. -/
def legacyPort (legacyUrl : Url) : String :=
  if legacyUrl.portText = "" then if legacyUrl.protocol = "http:" then "80" else "443" else legacyUrl.portText

def legacyRole (legacyUrl : Url) : String :=
  "graphql*" ++ legacyUrl.hostname ++ ":" ++ legacyPort legacyUrl ++ ":" ++ legacyUrl.protocol

/-- Roles known not to affect the stitched schema. -/
def getNonStitchedRoles (manifest : List Subgraph) : Option (List String) :=
  (legacySubgraph manifest).map fun legacySubgraph =>
    ["components*", "componentsweb*", "taql*", legacyRole legacySubgraph.url]

/-- Some role that is not blank starts with none of those known. -/
def isOverriddenBy (svco : String) (nonstitchedRoles : List String) : Bool :=
  (((split '|' svco).filter fun role => trim role ≠ "").find? fun role =>
    (nonstitchedRoles.find? fun nonStitched => startsWith role nonStitched).isNone).isSome

/-- The parts of the last override of the legacy subgraph, none without one. A line
that starts with `graphql*` has a second part. -/
def legacyOverride (legacySVCO : String) : List String :=
  ((((split '|' legacySVCO).filter fun line => startsWith line "graphql*").map fun override =>
    ((split '*' override)[1]?).getD "").map (split ':')).getLast?.getD []

/-- A URL with the parts of an override assigned to it, as far as there are any. -/
def withOverride (hosts : Url.HostParser) (url : Url) (parts : List String) : Url :=
  let named := url.setHostname hosts (parts[0]?.getD url.hostname)
  let ported := named.setPort (parts[1]?.getD named.portText)
  let protocol := parts[2]?.getD ""
  (ported.setProtocol (if protocol = "" then ported.protocol else protocol ++ ":")).clearPathname

/-- Nothing here throws: the setters ignore what they do not accept. -/
def legacyHostOverride (hosts : Url.HostParser) (url : Url) (legacySVCO : String) : Url :=
  withOverride hosts url (legacyOverride legacySVCO)

/-! ### What the two say of each other -/

def roles (svco : String) : List String := (split '|' svco).filter fun role => trim role ≠ ""

/-- The roles besides the legacy one that are known not to be stitched. -/
def unstitched : List String := ["components*", "componentsweb*", "taql*"]

/-- The role that names a subgraph as it is, as `legacyHostOverride` reads roles. -/
def ownRole (url : Url) : String :=
  "graphql*" ++ url.hostname ++ ":" ++ url.effectivePort.elim "" toString ++ ":" ++ url.scheme

def Harmless (url : Url) (role : String) : Prop :=
  (∃ opening ∈ unstitched, startsWith role opening = true) ∨ role = ownRole url

/-- What is not flagged as an override overrides nothing, and what overrides nothing
is not flagged. -/
structure Agree (hosts : Url.HostParser) (url : Url) (nonstitchedRoles : List String) (svco : String) : Prop where
  unchanged : isOverriddenBy svco nonstitchedRoles = false → url.SameService (legacyHostOverride hosts url svco)
  unflagged : (∀ role ∈ roles svco, Harmless url role) → isOverriddenBy svco nonstitchedRoles = false

/-- A role that starts as one that is not stitched. -/
def Known (url : Url) (role : String) : Prop :=
  (∃ opening ∈ unstitched, startsWith role opening = true) ∨ startsWith role (legacyRole url) = true

theorem isOverriddenBy_eq_false (url : Url) (svco : String) :
    isOverriddenBy svco (unstitched ++ [legacyRole url]) = false ↔ ∀ role ∈ roles svco, Known url role := by
  unfold isOverriddenBy
  rw [Bool.eq_false_iff, ne_eq, Option.isSome_iff_ne_none, not_not, List.find?_eq_none]
  refine forall₂_congr fun role _ => ?_
  rw [Option.isNone_iff_eq_none, List.find?_eq_none]
  unfold Known
  push Not
  simp only [List.mem_append, List.mem_singleton, or_and_right, exists_or, exists_eq_left]

/-- A line of the legacy subgraph is not blank. -/
theorem trim_ne_empty {line : String} (legacy : startsWith line "graphql*" = true) : trim line ≠ "" := by
  obtain ⟨rest, is⟩ := startsWith_iff.mp legacy
  have letter : 'g' ∈ line.toList := is ▸ List.mem_append_left _ (by decide)
  have first : line.toList.dropWhile isSpace = line.toList := by
    rw [is]
    rfl
  intro empty
  have none := congrArg String.toList empty
  unfold trim at none
  rw [String.toList_ofList, first] at none
  have blank := List.dropWhile_eq_nil_iff.mp (List.reverse_eq_nil_iff.mp none) 'g' (List.mem_reverse.mpr letter)
  exact absurd blank (by decide)

/-- No line of the legacy subgraph starts as another role. -/
theorem legacy_of_known {url : Url} {line : String} (legacy : startsWith line "graphql*" = true)
    (known : Known url line) : startsWith line (legacyRole url) = true := by
  refine known.resolve_left ?_
  rintro ⟨opening, listed, starts⟩
  obtain ⟨rest, is⟩ := startsWith_iff.mp legacy
  obtain ⟨rest', is'⟩ := startsWith_iff.mp starts
  have heads : ∀ opening ∈ unstitched, ∃ letter others, opening.toList = letter :: others ∧ letter ≠ 'g' := by
    simp [unstitched]
  obtain ⟨letter, others, spelled, differs⟩ := heads opening listed
  rw [is, spelled] at is'
  exact differs (List.cons.inj is').1.symm

theorem legacy_of_role {url : Url} {line : String} (own : startsWith line (legacyRole url) = true) :
    startsWith line "graphql*" = true := by
  obtain ⟨rest, is⟩ := startsWith_iff.mp own
  unfold legacyRole at is
  simp only [String.toList_append, List.append_assoc] at is
  exact startsWith_iff.mpr ⟨_, is⟩

/-! ### The parts of a legacy role -/

theorem toList_legacyPort (url : Url) : ∀ char ∈ (legacyPort url).toList, char.isDigit = true := by
  unfold legacyPort Url.portText
  cases url.port with
  | none =>
    rw [Option.elim_none, if_pos rfl]
    split
    · exact fun char member => Url.digits_toString 80 member
    · exact fun char member => Url.digits_toString 443 member
  | some value =>
    rw [Option.elim_some, if_neg (Url.toString_ne_empty value)]
    exact fun char member => Url.digits_toString value member

theorem star_notMem_scheme (url : Url) : '*' ∉ url.scheme.toList :=
  fun member => absurd (url.schemeChar_of_mem member) (by decide)

/-- What `legacyHostOverride` reads of a line. -/
theorem parts_of_line {line : String} (legacy : startsWith line "graphql*" = true) :
    ∃ rest, line.toList = "graphql*".toList ++ rest ∧
      ((split '*' line)[1]?).getD "" = String.ofList (rest.takeWhile fun char => char ≠ '*') := by
  obtain ⟨rest, is⟩ := startsWith_iff.mp legacy
  have cut : line.toList = "graphql".toList ++ '*' :: rest := is
  refine ⟨rest, is, ?_⟩
  rw [split_append_cons cut (by decide), List.getElem?_cons_succ, ← List.head?_eq_getElem?, head?_split,
    String.toList_ofList, Option.getD_some]

/-- The part of a line that names the legacy subgraph. -/
def target (line : String) : List String := split ':' (((split '*' line)[1]?).getD "")

theorem toList_of_own {url : Url} {line : String} (own : startsWith line (legacyRole url) = true) :
    ∃ tail, line.toList = "graphql*".toList ++ (url.hostname.toList ++
      ':' :: ((legacyPort url).toList ++ ':' :: (url.scheme.toList ++ ':' :: tail))) := by
  obtain ⟨tail, is⟩ := startsWith_iff.mp own
  refine ⟨tail, is.trans ?_⟩
  unfold legacyRole Url.protocol
  simp only [String.toList_append, List.append_assoc]
  rfl

theorem target_of_own {url : Url} {line : String} (own : startsWith line (legacyRole url) = true) :
    ∃ tail, target line = split ':' (String.ofList ((url.hostname.toList ++
      ':' :: ((legacyPort url).toList ++ ':' :: (url.scheme.toList ++ ':' :: tail))).takeWhile fun char =>
        char ≠ '*')) := by
  obtain ⟨tail, is⟩ := toList_of_own own
  obtain ⟨rest, is', part⟩ := parts_of_line (legacy_of_role own)
  refine ⟨tail, ?_⟩
  rw [target, part, List.append_cancel_left (is'.symm.trans is)]

private theorem unstopped {chars : List Char} {separator : Char} (absent : separator ∉ chars) :
    ∀ char ∈ chars, decide (char ≠ separator) = true :=
  fun _ member => decide_eq_true fun same => absent (same ▸ member)

/-- Without a star in the hostname a line is read as it was put together. -/
theorem target_unstarred {url : Url} (plain : ':' ∉ url.hostname.toList) (unstarred : '*' ∉ url.hostname.toList)
    {line : String} (own : startsWith line (legacyRole url) = true) :
    ∃ more, target line = url.hostname :: legacyPort url :: url.scheme :: more := by
  obtain ⟨tail, is⟩ := target_of_own own
  have passes {chars rest : List Char} (absent : '*' ∉ chars) :
      (chars ++ ':' :: rest).takeWhile (fun char => decide (char ≠ '*')) =
        chars ++ ':' :: rest.takeWhile fun char => char ≠ '*' := by
    rw [List.takeWhile_append_of_pos (unstopped absent), List.takeWhile_cons_of_pos (by decide)]
  have digits (char : Char) (sign : char.isDigit = false) : char ∉ (legacyPort url).toList := fun member =>
    absurd (toList_legacyPort url char member) (by simp [sign])
  rw [passes unstarred, passes (digits '*' rfl), passes (star_notMem_scheme url),
    split_append_cons String.toList_ofList plain, split_append_cons String.toList_ofList (digits ':' rfl),
    split_append_cons String.toList_ofList url.colon_notMem_scheme] at is
  exact ⟨_, is⟩

/-- What the hostname is cut down to by a star in it. -/
def beforeStar (url : Url) : String := String.ofList (url.hostname.toList.takeWhile fun char => char ≠ '*')

/-- With a star in it, what comes before is taken for the hostname. -/
theorem target_starred {url : Url} (plain : ':' ∉ url.hostname.toList) (starred : '*' ∈ url.hostname.toList)
    {line : String} (own : startsWith line (legacyRole url) = true) : target line = [beforeStar url] := by
  obtain ⟨tail, is⟩ := target_of_own own
  obtain ⟨before, after, cut, absent⟩ := List.eq_append_cons_of_mem starred
  have short : beforeStar url = String.ofList before := by
    rw [beforeStar, cut, List.takeWhile_append_of_pos (unstopped absent), List.takeWhile_cons_of_neg (by simp),
      List.append_nil]
  rw [cut, List.append_assoc, List.takeWhile_append_of_pos (unstopped absent), List.cons_append,
    List.takeWhile_cons_of_neg (by simp), List.append_nil, ← short] at is
  rw [is]
  apply split_of_notMem
  rw [short, String.toList_ofList]
  exact fun member => plain (cut ▸ List.mem_append_left _ member)

/-! ### What a line does to the URL -/

/-- The lines that `legacyHostOverride` looks at. -/
def legacyLines (svco : String) : List String := (split '|' svco).filter fun line => startsWith line "graphql*"

theorem legacyOverride_eq (svco : String) : legacyOverride svco = ((legacyLines svco).getLast?.map target).getD [] := by
  unfold legacyOverride
  rw [List.getLast?_map, List.getLast?_map, Option.map_map]
  rfl

/-- An override that names no other protocol changes the hostname and the port at most. -/
theorem sameService_iff {hosts : Url.HostParser} {url : Url} {parts : List String}
    (scheme : parts[2]?.getD "" = "" ∨ parts[2]?.getD "" = url.scheme) :
    url.SameService (withOverride hosts url parts) ↔
      (url.setHostname hosts (parts[0]?.getD url.hostname)).hostname = url.hostname ∧
        ((url.setHostname hosts (parts[0]?.getD url.hostname)).setPort (parts[1]?.getD url.portText)).effectivePort =
          url.effectivePort := by
  let named := url.setHostname hosts (parts[0]?.getD url.hostname)
  have text : named.portText = url.portText := by simp only [named, Url.portText, Url.port_setHostname]
  let ported := named.setPort (parts[1]?.getD url.portText)
  have same : ported.scheme = url.scheme := by simp [ported, named]
  have protocol : (if parts[2]?.getD "" = "" then ported.protocol else parts[2]?.getD "" ++ ":") = ported.protocol := by
    split
    · rfl
    · rename_i given
      rw [scheme.resolve_left given, Url.protocol, same]
  have result : withOverride hosts url parts = ported.clearPathname := by
    unfold withOverride
    simp only [show (url.setHostname hosts (parts[0]?.getD url.hostname)).portText = url.portText from text]
    exact congrArg Url.clearPathname ((congrArg ported.setProtocol protocol).trans ported.setProtocol_own)
  have hostname : ported.clearPathname.hostname = named.hostname := by
    simp only [Url.hostname, Url.clearPathname_host, ported, Url.host_setPort]
  have port : ported.clearPathname.effectivePort = ported.effectivePort := by
    simp only [Url.effectivePort, Url.clearPathname_port, Url.clearPathname_scheme]
  rw [result]
  constructor
  · rintro ⟨sameHost, samePort, _⟩
    exact ⟨hostname.symm.trans sameHost, port.symm.trans samePort⟩
  · rintro ⟨sameHost, samePort⟩
    refine ⟨hostname.trans sameHost, port.trans samePort, ?_⟩
    rw [Url.protocol, Url.protocol, Url.clearPathname_scheme, same]

/-- The port that stands for a default. -/
def assumedPort (url : Url) : Nat := if url.scheme = "http" then 80 else 443

theorem legacyPort_eq (url : Url) : legacyPort url = toString (url.port.getD (assumedPort url)) := by
  have http : url.protocol = "http:" ↔ url.scheme = "http" := url.protocol_eq_iff "http"
  unfold legacyPort Url.portText assumedPort
  cases url.port with
  | none =>
    rw [Option.elim_none, if_pos rfl, Option.getD_none]
    by_cases same : url.scheme = "http"
    · rw [if_pos (http.mpr same), if_pos same]
      rfl
    · rw [if_neg fun again => same (http.mp again), if_neg same]
      rfl
  | some value => exact if_neg (Url.toString_ne_empty value)

/-- A port that is written out, that cannot be set or whose default is the one assumed. -/
def PortAgrees (url : Url) : Prop :=
  url.port.isSome = true ∨ url.cannotHavePort = true ∨ defaultPort url.scheme = some (assumedPort url)

theorem effectivePort_legacyPort_iff {url named : Url} (hostname : named.hostname = url.hostname)
    (scheme : named.scheme = url.scheme) (port : named.port = url.port) :
    (named.setPort (legacyPort url)).effectivePort = url.effectivePort ↔ PortAgrees url := by
  have cannot : named.cannotHavePort = url.cannotHavePort := by
    rw [Url.cannotHavePort, Url.cannotHavePort, hostname, scheme]
  have inRange : url.port.getD (assumedPort url) < 65536 := by
    cases held : url.port with
    | none =>
      rw [Option.getD_none, assumedPort]
      split <;> decide
    | some value => exact url.portRange value held
  unfold Url.effectivePort PortAgrees
  rw [Url.scheme_setPort, scheme, legacyPort_eq, Url.port_setPort named inRange, cannot, scheme, port]
  cases url.cannotHavePort with
  | true => simp
  | false =>
    cases held : url.port with
    | none =>
      by_cases default : defaultPort url.scheme = some (assumedPort url)
      · simp [default]
      · simp [default, Ne.symm default]
    | some value => simp [url.portStray value held]

theorem effectivePort_own {url named : Url} (scheme : named.scheme = url.scheme) (port : named.port = url.port) :
    (named.setPort url.portText).effectivePort = url.effectivePort := by
  have text : url.portText = named.portText := by rw [Url.portText, Url.portText, port]
  rw [text, Url.setPort_own, Url.effectivePort, Url.effectivePort, scheme, port]

/-! ### When the two agree -/

/-- The role made of a URL, read back, leaves the URL where it is. -/
def Stable (hosts : Url.HostParser) (url : Url) : Prop :=
  if '*' ∈ url.hostname.toList then (url.setHostname hosts (beforeStar url)).hostname = url.hostname
  else PortAgrees url

theorem sameService_legacyLine {hosts : Url.HostParser} {url : Url} (parsed : url.Parsed hosts)
    (plain : ':' ∉ url.hostname.toList) {line : String} (own : startsWith line (legacyRole url) = true) :
    url.SameService (withOverride hosts url (target line)) ↔ Stable hosts url := by
  unfold Stable
  by_cases starred : '*' ∈ url.hostname.toList
  · rw [if_pos starred, target_starred plain starred own, sameService_iff (.inl rfl)]
    exact and_iff_left (effectivePort_own (Url.scheme_setHostname ..) (Url.port_setHostname ..))
  · obtain ⟨more, is⟩ := target_unstarred plain starred own
    rw [if_neg starred, is, sameService_iff (.inr rfl)]
    simp only [List.getElem?_cons_zero, List.getElem?_cons_succ, Option.getD_some]
    rw [effectivePort_legacyPort_iff (Url.hostname_setHostname_own parsed) (Url.scheme_setHostname ..)
      (Url.port_setHostname ..)]
    exact and_iff_right (Url.hostname_setHostname_own parsed)

theorem sameService_noLine {hosts : Url.HostParser} {url : Url} (parsed : url.Parsed hosts) :
    url.SameService (withOverride hosts url []) :=
  (sameService_iff (.inl rfl)).mpr
    ⟨Url.hostname_setHostname_own parsed, effectivePort_own (Url.scheme_setHostname ..) (Url.port_setHostname ..)⟩

/-- The lines of a string with known roles only are those that start as the legacy role. -/
theorem legacyLine_iff {url : Url} {svco : String} (known : ∀ role ∈ roles svco, Known url role) {line : String} :
    line ∈ legacyLines svco ↔ line ∈ roles svco ∧ startsWith line (legacyRole url) = true := by
  unfold legacyLines roles at *
  simp only [List.mem_filter, decide_eq_true_eq] at known ⊢
  constructor
  · rintro ⟨listed, legacy⟩
    have filled := trim_ne_empty legacy
    exact ⟨⟨listed, filled⟩, legacy_of_known legacy (known line ⟨listed, filled⟩)⟩
  · rintro ⟨⟨listed, _⟩, own⟩
    exact ⟨listed, legacy_of_role own⟩

theorem sameService_known_iff {hosts : Url.HostParser} {url : Url} (parsed : url.Parsed hosts)
    (plain : ':' ∉ url.hostname.toList) {svco : String} (known : ∀ role ∈ roles svco, Known url role) :
    url.SameService (legacyHostOverride hosts url svco) ↔
      ((∃ role ∈ roles svco, startsWith role (legacyRole url) = true) → Stable hosts url) := by
  rw [legacyHostOverride, legacyOverride_eq]
  cases last : (legacyLines svco).getLast? with
  | none =>
    refine iff_of_true (sameService_noLine parsed) ?_
    rintro ⟨role, own⟩
    have member := (legacyLine_iff known).mpr own
    rw [List.getLast?_eq_none_iff.mp last] at member
    cases member
  | some line =>
    obtain ⟨listed, own⟩ := (legacyLine_iff known).mp (List.mem_of_getLast? last)
    rw [Option.map_some, Option.getD_some, sameService_legacyLine parsed plain own]
    exact ⟨fun stable _ => stable, fun stable => stable ⟨line, listed, own⟩⟩

/-- The role that names a subgraph as it is lacks the last colon of the one that is known. -/
theorem ownRole_unknown (url : Url) : ¬Known url (ownRole url) := by
  have legacy : startsWith (ownRole url) "graphql*" = true := by
    unfold startsWith ownRole
    simp only [String.toList_append, List.append_assoc]
    exact List.isPrefixOf_iff_prefix.mpr (List.prefix_append _ _)
  intro known
  obtain ⟨rest, is⟩ := startsWith_iff.mp (legacy_of_known legacy known)
  have digits : ':' ∉ (url.effectivePort.elim "" toString).toList := by
    cases url.effectivePort with
    | none => decide
    | some value => exact fun member => absurd (Url.digits_toString value member) (by decide)
  unfold ownRole legacyRole Url.protocol at is
  have colons := congrArg (List.count ':') is
  simp only [String.toList_append, List.count_append, List.count_eq_zero_of_not_mem digits,
    List.count_eq_zero_of_not_mem url.colon_notMem_scheme] at colons
  have one : List.count ':' ":".toList = 1 := by decide
  omega

/-- The two parsers agree on a string exactly when no role of it is the legacy one as it
is, among roles that are harmless, and the role made of the URL can be read back, where
a string has it. -/
theorem agree_iff {manifest : List Subgraph} {subgraph : Subgraph} (legacy : legacySubgraph manifest = some subgraph)
    {hosts : Url.HostParser} (parsed : subgraph.url.Parsed hosts) (plain : ':' ∉ subgraph.url.hostname.toList)
    (svco : String) :
    (∃ nonstitchedRoles, getNonStitchedRoles manifest = some nonstitchedRoles ∧
        Agree hosts subgraph.url nonstitchedRoles svco) ↔
      ((∀ role ∈ roles svco, Known subgraph.url role) →
        (∃ role ∈ roles svco, startsWith role (legacyRole subgraph.url) = true) → Stable hosts subgraph.url) ∧
      ((∀ role ∈ roles svco, Harmless subgraph.url role) → ownRole subgraph.url ∉ roles svco) := by
  have listed : getNonStitchedRoles manifest = some (unstitched ++ [legacyRole subgraph.url]) := by
    rw [getNonStitchedRoles, legacy]
    rfl
  have flagged := isOverriddenBy_eq_false subgraph.url svco
  constructor
  · rintro ⟨nonstitchedRoles, are, agree⟩
    cases listed.symm.trans are
    refine ⟨fun known => ?_, fun harmless named => ?_⟩
    · exact (sameService_known_iff parsed plain known).mp (agree.unchanged (flagged.mpr known))
    · exact ownRole_unknown _ (flagged.mp (agree.unflagged harmless) _ named)
  · rintro ⟨stable, unnamed⟩
    refine ⟨_, listed, fun quiet => ?_, fun harmless => flagged.mpr fun role member => ?_⟩
    · have known := flagged.mp quiet
      exact (sameService_known_iff parsed plain known).mpr (stable known)
    · refine (harmless role member).imp_right fun own => ?_
      exact absurd (own ▸ member) (unnamed harmless)

/-- `http://legacy/`. -/
def legacyUrl : Url where
  scheme := "http"
  host := some "legacy"
  port := none
  credentials := false
  cannotBeABase := false
  pathname := "/"
  grammar := rfl
  portRange := noPort_range
  portStray := noPort_stray "http"

/-- Hosts that are as they are written. -/
def literalHosts : Url.HostParser := fun _ value => if value = "" then none else some value

/-- With a colon at its end the role is known, and does not move the subgraph. -/
theorem agree_colon : ∃ nonstitchedRoles, getNonStitchedRoles [⟨"legacy-graphql", legacyUrl⟩] = some nonstitchedRoles ∧
    isOverriddenBy "components*x|graphql*legacy:80:http:" nonstitchedRoles = false ∧
    Agree literalHosts legacyUrl nonstitchedRoles "components*x|graphql*legacy:80:http:" := by
  have condition := @agree_iff [⟨"legacy-graphql", legacyUrl⟩] ⟨"legacy-graphql", legacyUrl⟩ rfl literalHosts
    (fun _ => rfl) (by decide) "components*x|graphql*legacy:80:http:"
  have stable : Stable literalHosts legacyUrl := (if_neg (by decide)).mpr (.inr (.inr rfl))
  obtain ⟨_, ⟨⟩, agree⟩ := condition.mpr ⟨fun _ _ => stable, fun _ => by decide⟩
  exact ⟨_, rfl, by decide, agree⟩

/-- As `legacyHostOverride` reads roles, the own role of the subgraph overrides nothing,
but it is taken for an override. -/
theorem disagree_own : ¬∃ nonstitchedRoles,
    getNonStitchedRoles [⟨"legacy-graphql", legacyUrl⟩] = some nonstitchedRoles ∧
    Agree literalHosts legacyUrl nonstitchedRoles "graphql*legacy:80:http" := by
  rintro ⟨_, ⟨⟩, agree⟩
  have harmless : ∀ role ∈ roles "graphql*legacy:80:http", Harmless legacyUrl role := by
    have named : roles "graphql*legacy:80:http" = [ownRole legacyUrl] := by decide
    rw [named]
    rintro role (_ | ⟨_, ⟨⟩⟩)
    exact .inr rfl
  exact absurd (agree.unflagged harmless) (by decide)

end Taql.ServiceOverrides
