import Mathlib.Data.List.Sort
import Mathlib.Data.String.Basic
import Mirage.Dns.DomainMatch
import Mirage.Lib.Utf8
import Mirage.Router.Rule

/-!
The static hosts of advanced_dns: `normalize_static_hosts` of config.rs and the
lookup that `process_query` of dns/server.rs begins with. The map of the
configuration is the list of its entries in any order.
-/

namespace Mirage.Dns
open Text Utf8
open Router (IpAddr)

inductive StaticValue where
  | one (ip : String)
  | many (ips : List String)

def StaticValue.asSlice : StaticValue → List String
  | one ip => [ip]
  | many ips => ips

abbrev StaticHost := String × StaticValue

abbrev StaticEntry := List Char × List IpAddr

def byteLen (name : List Char) : Nat := (encode name).length

/-- The byte before the key is looked at only where there is one before that. -/
def staticDomainMatches (dq key : List Char) : Bool :=
  dq == key || (decide (byteLen key + 1 < byteLen dq) && key.isSuffixOf dq &&
    (encode dq)[byteLen dq - byteLen key - 1]? == some (UInt8.ofNat '.'.toNat))

section Table
variable (table : DomainTable) (parse : String → Option IpAddr)

def addresses (host : StaticHost) : List IpAddr := host.2.asSlice.filterMap parse

def addStaticHost (out : List StaticEntry) (host : StaticHost) : List StaticEntry :=
  let norm := normalDomain table host.1
  let ips := addresses parse host
  if norm = [] then out
  else if ips = [] then out
  -- A name that was seen before, under another spelling.
  else if (out.map Prod.fst).contains norm then out
  else out ++ [(norm, ips)]

def normalizeStaticHosts (hosts : List StaticHost) : List StaticEntry :=
  let raw := hosts.insertionSort fun a b => a.1 ≤ b.1
  (raw.foldl (addStaticHost table parse) []).insertionSort fun a b => byteLen b.1 ≤ byteLen a.1

def staticEntry (cachedStatic : List StaticEntry) (domain : String) : Option StaticEntry :=
  cachedStatic.find? fun entry => staticDomainMatches (lowercase table domain.toList) entry.1

end Table

/-- The name itself or a name below it. -/
def Covers (name dq : List Char) : Prop :=
  dq = name ∨ ∃ front, front ≠ [] ∧ dq = front ++ '.' :: name

section Matching
variable {dq key name other : List Char}

theorem byteLen_append (front back : List Char) :
    byteLen (front ++ back) = byteLen front + byteLen back := by
  rw [byteLen, encode_append, List.length_append]
  rfl

theorem byteLen_pos (some_ : name ≠ []) : 0 < byteLen name := by
  apply Nat.pos_of_ne_zero
  intro none_
  exact some_ (encode_injective (List.length_eq_zero_iff.mp none_))

theorem byteLen_dot : byteLen ['.'] = 1 := rfl

theorem encode_dot {text : List Char}
    (dot : (encode text)[byteLen text - 1]? = some (UInt8.ofNat '.'.toNat)) :
    ∃ front, text = front ++ ['.'] := by
  have some_ : encode text ≠ [] := by
    rintro none_
    rw [none_] at dot
    cases dot
  have last : (encode text).getLast? = some (UInt8.ofNat '.'.toNat) := by
    rw [List.getLast?_eq_getElem?]
    exact dot
  obtain ⟨front, split⟩ := List.getLast?_eq_some_iff.mp last
  obtain ⟨before, after, stood, -, rest⟩ := exists_cut (by decide : '.'.toNat < 128) split
  have none_ : after = [] := encode_injective rest
  exact ⟨before, by rw [stood, none_]⟩

theorem staticDomainMatches_iff : staticDomainMatches dq key = true ↔ Covers key dq := by
  rw [staticDomainMatches, Bool.or_eq_true, beq_iff_eq]
  refine or_congr_right ⟨?_, ?_⟩
  · intro below
    obtain ⟨inside, dot⟩ := Bool.and_eq_true_iff.mp below
    obtain ⟨longer, suffix⟩ := Bool.and_eq_true_iff.mp inside
    obtain ⟨text, rfl⟩ := List.isSuffixOf_iff_suffix.mp suffix
    have longer := of_decide_eq_true longer
    have dot := eq_of_beq dot
    rw [byteLen_append] at longer
    have index : byteLen (text ++ key) - byteLen key - 1 = byteLen text - 1 := by
      rw [byteLen_append]
      omega
    rw [index, encode_append, List.getElem?_append_left (by change _ < byteLen text; omega)] at dot
    obtain ⟨front, rfl⟩ := encode_dot dot
    refine ⟨front, ?_, List.append_assoc _ _ _⟩
    rintro rfl
    rw [List.nil_append, byteLen_dot] at longer
    omega
  · rintro ⟨front, some_, rfl⟩
    have whole : front ++ '.' :: key = (front ++ ['.']) ++ key := by
      rw [List.append_assoc, List.singleton_append]
    have size : byteLen (front ++ '.' :: key) = byteLen front + 1 + byteLen key := by
      rw [whole, byteLen_append, byteLen_append, byteLen_dot]
    have index : byteLen (front ++ '.' :: key) - byteLen key - 1 = byteLen front := by
      rw [size]
      omega
    have longer := byteLen_pos some_
    refine Bool.and_eq_true_iff.mpr ⟨Bool.and_eq_true_iff.mpr ⟨?_, ?_⟩, ?_⟩
    · exact decide_eq_true (by omega)
    · rw [whole]
      exact List.isSuffixOf_iff_suffix.mpr (List.suffix_append _ _)
    · rw [index, encode_append, byteLen, List.getElem?_append_right (Nat.le_refl _),
        Nat.sub_self, encode_cons]
      rfl

theorem Covers.suffix (covers : Covers name dq) : name <:+ dq := by
  rcases covers with rfl | ⟨front, -, rfl⟩
  · exact List.suffix_refl _
  · exact ⟨front ++ ['.'], by rw [List.append_assoc, List.singleton_append]⟩

/-- Of two names that cover a domain the one with more bytes ends in the other. -/
theorem suffix_of_byteLen (first : name <:+ dq) (second : other <:+ dq)
    (longer : byteLen other ≤ byteLen name) : other <:+ name := by
  rcases List.suffix_or_suffix_of_suffix first second with ⟨front, rfl⟩ | inside
  · rw [byteLen_append] at longer
    have none_ : front = [] := by
      by_contra some_
      have := byteLen_pos some_
      omega
    rw [none_, List.nil_append]
  · exact inside

end Matching

section Normal
variable {table : DomainTable} {parse : String → Option IpAddr}
  {hosts : List StaticHost} {host other : StaticHost} {entry : StaticEntry}

/-- The host has a name and an address, and makes the entry. -/
structure Makes (table : DomainTable) (parse : String → Option IpAddr) (host : StaticHost)
    (entry : StaticEntry) : Prop where
  name : normalDomain table host.1 = entry.1
  ips : addresses parse host = entry.2
  named : entry.1 ≠ []
  usable : entry.2 ≠ []

/-- The table made of hosts in the order of their spellings. -/
structure Gathered (table : DomainTable) (parse : String → Option IpAddr) (hosts : List StaticHost)
    (out : List StaticEntry) : Prop where
  first : ∀ entry ∈ out, ∃ host ∈ hosts, Makes table parse host entry ∧
    ∀ other ∈ hosts, ∀ made, Makes table parse other made → made.1 = entry.1 → host.1 ≤ other.1
  every : ∀ host ∈ hosts, ∀ entry, Makes table parse host entry → entry.1 ∈ out.map Prod.fst

theorem Gathered.add {out : List StaticEntry} (kept : Gathered table parse hosts out)
    (last : ∀ other ∈ hosts, other.1 ≤ host.1) :
    Gathered table parse (hosts ++ [host]) (addStaticHost table parse out host) := by
  have passed : (∀ entry, Makes table parse host entry → entry.1 ∈ out.map Prod.fst) →
      Gathered table parse (hosts ++ [host]) out := by
    intro known
    constructor
    · intro entry member
      obtain ⟨found, inside, makes, least⟩ := kept.first entry member
      refine ⟨found, List.mem_append_left _ inside, makes, ?_⟩
      intro other there made makes' same
      rcases List.mem_append.mp there with old | new
      · exact least other old made makes' same
      · rw [List.mem_singleton.mp new]
        exact last found inside
    · intro other there entry makes
      rcases List.mem_append.mp there with old | new
      · exact kept.every other old entry makes
      · cases List.mem_singleton.mp new
        exact known entry makes
  unfold addStaticHost
  dsimp only
  split
  · rename_i unnamed
    exact passed fun entry makes => absurd (makes.name.symm.trans unnamed) makes.named
  · rename_i named
    split
    · rename_i unusable
      exact passed fun entry makes => absurd (makes.ips.symm.trans unusable) makes.usable
    · rename_i usable
      split
      · rename_i seen
        exact passed fun entry makes => makes.name ▸ List.contains_iff_mem.mp seen
      · rename_i fresh
        constructor
        · intro entry member
          rcases List.mem_append.mp member with old | new
          · obtain ⟨found, inside, makes, least⟩ := kept.first entry old
            refine ⟨found, List.mem_append_left _ inside, makes, ?_⟩
            intro other there made makes' same
            rcases List.mem_append.mp there with before | now
            · exact least other before made makes' same
            · rw [List.mem_singleton.mp now]
              exact last found inside
          · cases List.mem_singleton.mp new
            refine ⟨host, List.mem_append_right _ List.mem_cons_self, ⟨rfl, rfl, named, usable⟩, ?_⟩
            intro other there made makes same
            rcases List.mem_append.mp there with before | now
            · -- An earlier spelling of the name would have been seen.
              have seen := kept.every other before made makes
              rw [same] at seen
              exact absurd (List.contains_iff_mem.mpr seen) fresh
            · rw [List.mem_singleton.mp now]
        · intro other there entry makes
          rw [List.map_append]
          rcases List.mem_append.mp there with old | new
          · exact List.mem_append_left _ (kept.every other old entry makes)
          · cases List.mem_singleton.mp new
            exact List.mem_append_right _ (List.mem_singleton.mpr makes.name.symm)

theorem gathered_all (sorted : hosts.Pairwise fun a b => a.1 ≤ b.1) :
    Gathered table parse hosts (hosts.foldl (addStaticHost table parse) []) := by
  induction hosts using List.reverseRecOn with
  | nil => exact ⟨nofun, nofun⟩
  | append_singleton hosts host ih =>
      obtain ⟨before, -, last⟩ := List.pairwise_append.mp sorted
      rw [List.foldl_append, List.foldl_cons, List.foldl_nil]
      exact (ih before).add fun other inside => last other inside host List.mem_cons_self

theorem gathered_sorted : Gathered table parse (hosts.insertionSort fun a b => a.1 ≤ b.1)
    ((hosts.insertionSort fun a b => a.1 ≤ b.1).foldl (addStaticHost table parse) []) :=
  gathered_all (List.pairwise_insertionSort (fun a b : StaticHost => a.1 ≤ b.1) hosts)

/-- The host whose entry takes the domain over: of all names that cover the domain its
name is the longest, and of all spellings of that name its own comes first. -/
structure Governs (table : DomainTable) (parse : String → Option IpAddr)
    (hosts : List StaticHost) (dq : List Char) (host : StaticHost) (entry : StaticEntry) :
    Prop where
  member : host ∈ hosts
  makes : Makes table parse host entry
  covers : Covers entry.1 dq
  longest : ∀ other ∈ hosts, ∀ made, Makes table parse other made → Covers made.1 dq →
    made.1 <:+ entry.1
  first : ∀ other ∈ hosts, ∀ made, Makes table parse other made → made.1 = entry.1 →
    host.1 ≤ other.1

theorem Governs.unique {dq : List Char} {made : StaticEntry}
    (keys : (hosts.map Prod.fst).Nodup) (one : Governs table parse hosts dq host entry)
    (two : Governs table parse hosts dq other made) : entry = made := by
  have names : entry.1 = made.1 := by
    apply (two.longest host one.member entry one.makes one.covers).eq_of_length_le
    exact (one.longest other two.member made two.makes two.covers).length_le
  have spelling : host.1 = other.1 := by
    apply le_antisymm
    · exact one.first other two.member made two.makes names.symm
    · exact two.first host one.member entry one.makes names
  obtain rfl := List.inj_on_of_nodup_map keys one.member two.member spelling
  exact Prod.ext names (one.makes.ips.symm.trans two.makes.ips)

theorem governs_of_found {domain : String}
    (found : staticEntry table (normalizeStaticHosts table parse hosts) domain = some entry) :
    ∃ host, Governs table parse hosts (lowercase table domain.toList) host entry := by
  have kept := @gathered_sorted table parse hosts
  obtain ⟨matched, front, back, stood, passed⟩ := List.find?_eq_some_iff_append.mp found
  have longest : (normalizeStaticHosts table parse hosts).Pairwise fun a b =>
      byteLen b.1 ≤ byteLen a.1 := List.pairwise_insertionSort _ _
  have covers := staticDomainMatches_iff.mp matched
  have member : entry ∈ normalizeStaticHosts table parse hosts := List.mem_of_find?_eq_some found
  obtain ⟨host, there, makes, least⟩ := kept.first entry ((List.mem_insertionSort _).mp member)
  refine ⟨host, (List.mem_insertionSort _).mp there, makes, covers, ?_, ?_⟩
  · intro other known made makes' covers'
    obtain ⟨same, listed, names⟩ :=
      List.mem_map.mp (kept.every other ((List.mem_insertionSort _).mpr known) made makes')
    have listed : same ∈ normalizeStaticHosts table parse hosts :=
      (List.mem_insertionSort _).mpr listed
    apply suffix_of_byteLen covers.suffix covers'.suffix
    rw [← names] at covers' ⊢
    rw [stood] at listed longest
    -- What stands before the entry found does not cover the domain.
    rcases List.mem_append.mp listed with early | late
    · have missed := passed same early
      rw [staticDomainMatches_iff.mpr covers'] at missed
      cases missed
    · rcases List.mem_cons.mp late with rfl | later
      · exact Nat.le_refl _
      · exact (List.pairwise_cons.mp (List.pairwise_append.mp longest).2.1).1 same later
  · exact fun other known => least other ((List.mem_insertionSort _).mpr known)

theorem not_found {domain : String} {made : StaticEntry}
    (missed : staticEntry table (normalizeStaticHosts table parse hosts) domain = none)
    (known : host ∈ hosts) (makes : Makes table parse host made) :
    ¬ Covers made.1 (lowercase table domain.toList) := by
  intro covers
  have kept := @gathered_sorted table parse hosts
  obtain ⟨same, listed, names⟩ :=
    List.mem_map.mp (kept.every host ((List.mem_insertionSort _).mpr known) made makes)
  have all := List.find?_eq_none.mp missed same ((List.mem_insertionSort _).mpr listed)
  rw [names] at all
  exact all (staticDomainMatches_iff.mpr covers)

/-- Whatever order the map is walked in, a domain is taken over by the longest static
name that covers it, with the addresses of that name's first spelling; and it is not
taken over only if no name with an address covers it. -/
theorem static_hosts_exact (table : DomainTable) (parse : String → Option IpAddr)
    (hosts : List StaticHost) (keys : (hosts.map Prod.fst).Nodup) (domain : String) :
    let dq := lowercase table domain.toList
    let found := staticEntry table (normalizeStaticHosts table parse hosts) domain
    (∀ entry, found = some entry ↔ ∃ host, Governs table parse hosts dq host entry) ∧
      (found = none ↔ ∀ host ∈ hosts, ∀ entry, Makes table parse host entry →
        ¬ Covers entry.1 dq) ∧
      ∀ order : List StaticHost, order.Perm hosts →
        staticEntry table (normalizeStaticHosts table parse order) domain = found := by
  intro dq found
  have exact_ : ∀ order : List StaticHost, order.Perm hosts → ∀ entry,
      staticEntry table (normalizeStaticHosts table parse order) domain = some entry ↔
        ∃ host, Governs table parse hosts dq host entry := by
    intro order same entry
    have moved : ∀ {host entry}, Governs table parse order dq host entry →
        Governs table parse hosts dq host entry := fun governs =>
      ⟨same.subset governs.member, governs.makes, governs.covers,
        fun other known => governs.longest other (same.symm.subset known),
        fun other known => governs.first other (same.symm.subset known)⟩
    constructor
    · intro hit
      obtain ⟨host, governs⟩ := governs_of_found hit
      exact ⟨host, moved governs⟩
    · rintro ⟨host, governs⟩
      cases hit : staticEntry table (normalizeStaticHosts table parse order) domain with
      | none =>
          exact absurd governs.covers
            (not_found hit (same.symm.subset governs.member) governs.makes)
      | some made =>
          obtain ⟨other, rules⟩ := governs_of_found hit
          rw [governs.unique keys (moved rules)]
  refine ⟨exact_ hosts (.refl hosts), ⟨?_, ?_⟩, ?_⟩
  · exact fun missed host known entry makes => not_found missed known makes
  · intro uncovered
    cases hit : found with
    | none => rfl
    | some entry =>
        obtain ⟨host, governs⟩ := governs_of_found hit
        exact absurd governs.covers (uncovered host governs.member entry governs.makes)
  · intro order same
    apply Option.ext
    intro entry
    exact (exact_ order same entry).trans (exact_ hosts (.refl hosts) entry).symm

def sampleHosts : List StaticHost :=
  [("test.local", .one "10.0.0.2"), ("api.Test.Local.", .many ["nonsense", "10.0.0.3"]),
    ("Test.Local", .one "10.0.0.1"), (".", .one "10.0.0.9")]

def sampleParse (text : String) : Option IpAddr :=
  [("10.0.0.1", .v4 0x0a000001), ("10.0.0.2", .v4 0x0a000002), ("10.0.0.3", .v4 0x0a000003),
    ("10.0.0.9", .v4 0x0a000009)].lookup text

theorem static_hosts_sample :
    staticEntry sampleDomainTable
        (normalizeStaticHosts sampleDomainTable sampleParse sampleHosts.reverse) "www.test.local" =
      some ("test.local".toList, [.v4 0x0a000001]) :=
  ((static_hosts_exact sampleDomainTable sampleParse sampleHosts (by decide)
    "www.test.local").2.2 sampleHosts.reverse sampleHosts.reverse_perm).trans (by decide +kernel)

end Normal

end Mirage.Dns
