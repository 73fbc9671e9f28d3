import Mirage.Lib.FirstMatch
import Mirage.Router.Tables

/-!
What one rule contributes to a decision of the engine. `domainPart` and
`ipPart` are the naive reading of a rule's conditions; the engine's hits are
compared with them rule by rule, and `route_matched` becomes the first rule of
the table that the engine sees.
-/

namespace Mirage.Router
open AddressPrefix PrefixTrie KeywordScan Tally FirstMatch

/-- `suffix` is `host`, or a suffix of it that starts after a dot. -/
def LabelSuffix (suffix host : List Char) : Prop := suffix = host ∨ ('.' :: suffix) <:+ host

instance (suffix host : List Char) : Decidable (LabelSuffix suffix host) :=
  inferInstanceAs (Decidable (_ ∨ _))

theorem suffix_intercalate (first : List Char) (front back : List (List Char))
    (nonempty : back ≠ []) :
    ('.' :: ['.'].intercalate back) <:+ ['.'].intercalate (first :: front ++ back) := by
  induction front generalizing first with
  | nil =>
      rw [List.cons_append, List.nil_append, List.intercalate_cons_of_ne_nil nonempty]
      exact ⟨first, by simp⟩
  | cons second front ih =>
      rw [List.cons_append, List.intercalate_cons_of_ne_nil (by simp)]
      exact (ih second).trans (List.suffix_append _ _)

theorem splitOn_suffix_iff (suffix host : List Char) :
    suffix.splitOn '.' <:+ host.splitOn '.' ↔ LabelSuffix suffix host := by
  constructor
  · rintro ⟨front, joined⟩
    have host_eq : ['.'].intercalate (front ++ suffix.splitOn '.') = host := by
      rw [joined, List.intercalate_splitOn]
    cases front with
    | nil =>
        rw [List.nil_append, List.intercalate_splitOn] at host_eq
        exact Or.inl host_eq
    | cons first front =>
        have tail := suffix_intercalate first front _ (List.splitOn_ne_nil '.' suffix)
        rw [List.intercalate_splitOn, host_eq] at tail
        exact Or.inr tail
  · rintro (rfl | ⟨front, rfl⟩)
    · exact List.suffix_rfl
    · rw [List.splitOn_append_cons_self]
      exact List.suffix_append _ _

theorem reversedLabels_prefix (suffix host : String) :
    reversedLabels suffix <+: reversedLabels host ↔ LabelSuffix suffix.toList host.toList := by
  rw [reversedLabels, reversedLabels, List.reverse_prefix, splitOn_suffix_iff]

section NaiveReading
variable (crates : Crates) (geo : GeoData)

def Entry.meetsDomain (host : String) : Entry → Bool
  | .full domain => domain = host
  | .suffix domain => LabelSuffix domain.toList host.toList
  | .keyword text => text.toList <:+: host.toList
  | .regex pattern => crates.regexMatch pattern host
  | .cidr _ => false

def Entry.isKeyword : Entry → Bool
  | .keyword _ => true
  | _ => false

def Entry.meetsIp (ip : IpAddr) : Entry → Bool
  | .cidr net => net.contains ip
  | _ => false

def Rule.domainPart (rule : Rule) : Option String → Bool
  | some host => (ruleEntries geo rule).any (Entry.meetsDomain crates host)
  | none => false

def Rule.ipPart (rule : Rule) : Option IpAddr → Bool
  | some ip => (ruleEntries geo rule).any (Entry.meetsIp ip)
  | none => false

/-- The domain part without keywords. -/
def Rule.plainPart (rule : Rule) : Option String → Bool
  | some host => (ruleEntries geo rule).any fun entry =>
      !entry.isKeyword && entry.meetsDomain crates host
  | none => false

/-- The rule's mode combines the parts the rule declares. -/
def Rule.combine (rule : Rule) (domainPart ipPart : Bool) : Bool :=
  if rule.mode = "and" then
    (!rule.hasDomainFilters || domainPart) && (!rule.hasIpFilters || ipPart)
  else domainPart || ipPart || !rule.hasNetworkFilters

/-- What `route_matched` asks of a rule's hits. -/
def Rule.counted (rule : Rule) (domainHit ipHit : Bool) : Bool :=
  if rule.mode = "and" && (rule.hasDomainFilters && rule.hasIpFilters) then domainHit && ipHit
  else domainHit || ipHit || !rule.hasNetworkFilters

def Rule.naive (rule : Rule) (req : RoutingRequest) : Bool :=
  rule.eligible req &&
    rule.combine (rule.domainPart crates geo req.domain) (rule.ipPart geo req.ip)

end NaiveReading

section Kinds
variable {crates : Crates} {geo : GeoData} {rule : Rule}

theorem geoip_no_domain {list : String} {entry : Entry} {host : String}
    (member : entry ∈ geoipEntries geo list) : entry.meetsDomain crates host = false := by
  simp only [geoipEntries] at member
  split at member
  · split at member
    · obtain ⟨net, _, rfl⟩ := List.mem_map.mp member
      rfl
    · cases member
  · split at member <;> obtain ⟨net, _, rfl⟩ := List.mem_map.mp member <;> rfl

theorem hasNetworkFilters_of_mem {entry : Entry} (member : entry ∈ ruleEntries geo rule) :
    rule.hasNetworkFilters = true := by
  cases bare : rule.hasNetworkFilters with
  | true => rfl
  | false =>
      rw [ruleEntries_bare geo rule bare] at member
      cases member

theorem hasDomainFilters_of_meets {entry : Entry} {host : String}
    (member : entry ∈ ruleEntries geo rule) (meets : entry.meetsDomain crates host = true) :
    rule.hasDomainFilters = true := by
  simp only [Rule.hasDomainFilters, Bool.or_eq_true, Bool.not_eq_true', List.isEmpty_eq_false_iff]
  simp only [ruleEntries, List.mem_append, List.mem_map, List.mem_flatMap] at member
  rcases member with ((((⟨net, _, rfl⟩ | ⟨domain, listed, rfl⟩) | ⟨text, listed, rfl⟩) |
    ⟨pattern, listed, rfl⟩) | ⟨site, listed, _⟩) | ⟨list, listed, inside⟩
  · cases meets
  · exact Or.inl (Or.inl (Or.inl (List.ne_nil_of_mem listed)))
  · exact Or.inl (Or.inl (Or.inr (List.ne_nil_of_mem listed)))
  · exact Or.inl (Or.inr (List.ne_nil_of_mem listed))
  · exact Or.inr (List.ne_nil_of_mem listed)
  · rw [geoip_no_domain inside] at meets
    cases meets

theorem domainPart_hasDomainFilters {domain : Option String}
    (part : rule.domainPart crates geo domain = true) : rule.hasDomainFilters = true := by
  cases domain with
  | none => cases part
  | some host =>
      obtain ⟨entry, member, meets⟩ := List.any_eq_true.mp part
      exact hasDomainFilters_of_meets member meets

theorem ipPart_hasNetworkFilters {ip : Option IpAddr} (part : rule.ipPart geo ip = true) :
    rule.hasNetworkFilters = true := by
  cases ip with
  | none => cases part
  | some ip =>
      obtain ⟨entry, member, _⟩ := List.any_eq_true.mp part
      exact hasNetworkFilters_of_mem member

end Kinds

end Mirage.Router
