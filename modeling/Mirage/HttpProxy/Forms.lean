import Mirage.HttpProxy.Request
import Mirage.Sniff.HttpHost

/-!
Requests as clients write them, in the forms that a proxy is sent, and what is made
of them. A header block may hold any bytes, also some that are no text.
-/

namespace Mirage.HttpProxy
open Word Text Utf8 Cut Occurrence Sniff
open Lines (lines)
open Tunnel (isWhitespace trim)

section HeaderLines

variable {content rest : Bytes} {lineEnd : LineEnd} {n : Nat}

theorem hdrEnd_line (inline : Inline content)
    (found : hdrEnd (content ++ (lineEnd.bytes ++ rest)) = some n) :
    ∃ m, n = content.length + lineEnd.bytes.length + m ∧
      (rest.head? ≠ some 13 → hdrEnd rest = some m) := by
  have split : hdrEnd (content ++ (lineEnd.bytes ++ rest)) =
      (hdrEnd (lineEnd.bytes ++ rest)).map (content.length + ·) := endOf_free inline.2 _
  rw [split] at found
  obtain ⟨k, later, rfl⟩ := Option.map_eq_some_iff.mp found
  have four := (endOf_bounds later).1
  have size : (crlf ++ crlf).length = 4 := rfl
  rw [size] at four
  cases lineEnd with
  | lf =>
      have free : hdrEnd ([10] ++ rest) = (hdrEnd rest).map (1 + ·) :=
        @endOf_free _ _ [10] _ _ (by decide) rest
      rw [LineEnd.bytes, free] at later
      obtain ⟨m, here, rfl⟩ := Option.map_eq_some_iff.mp later
      exact ⟨m, by rw [LineEnd.bytes, List.length_singleton]; omega, fun _ => here⟩
  | crlf =>
      have two : LineEnd.crlf.bytes.length = 2 := rfl
      refine ⟨k - 2, by rw [two]; omega, fun other => ?_⟩
      have first : ¬ (crlf ++ crlf).isPrefixOf (13 :: 10 :: rest) = true := by
        intro here
        obtain ⟨tail, same⟩ := List.isPrefixOf_iff_prefix.mp here
        have behind : 13 :: 10 :: tail = rest := by
          simpa [crlf] using same
        rw [← behind] at other
        exact other rfl
      have second : ¬ (crlf ++ crlf).isPrefixOf (10 :: rest) = true := by
        intro here
        obtain ⟨tail, same⟩ := List.isPrefixOf_iff_prefix.mp here
        exact absurd (List.cons.inj same).1 (by decide)
      have whole : hdrEnd (LineEnd.crlf.bytes ++ rest) =
          ((hdrEnd rest).map (· + 1)).map (· + 1) := by
        change endOf (crlf ++ crlf) (13 :: 10 :: rest) = _
        rw [endOf, if_neg first, endOf, if_neg second]
        rfl
      rw [whole, Option.map_map] at later
      obtain ⟨m, here, same⟩ := Option.map_eq_some_iff.mp later
      rw [here]
      congr 1
      rw [Function.comp_apply] at same
      omega

theorem lines_header (inline : Inline content) (m : Nat) :
    lines (lossyChars ((content ++ (lineEnd.bytes ++ rest)).take
      (content.length + lineEnd.bytes.length + m))) =
        lossyChars content :: lines (lossyChars (rest.take m)) := by
  have clean : '\n' ∉ lossyChars content ∧ '\r' ∉ lossyChars content :=
    ⟨fun member => inline.1 (mem_of_mem_lossyChars (by decide) _ member),
      fun member => inline.2 (mem_of_mem_lossyChars (by decide) _ member)⟩
  have taken : (content ++ (lineEnd.bytes ++ rest)).take
      (content.length + lineEnd.bytes.length + m) = content ++ (lineEnd.bytes ++ rest.take m) := by
    rw [Nat.add_assoc, List.take_length_add_append, List.take_length_add_append]
  rw [taken]
  cases lineEnd with
  | lf =>
      have decoded : lossyChars (content ++ (LineEnd.lf.bytes ++ rest.take m)) =
          lossyChars content ++ '\n' :: lossyChars (rest.take m) := by
        rw [LineEnd.bytes, List.singleton_append, lossyChars_append (by decide)]
        congr 1
        exact lossyChars_ascii (c := '\n') (by decide) _
      have plain : (lossyChars content).getLast? ≠ some '\r' :=
        fun last => clean.2 (List.mem_of_getLast? last)
      rw [decoded, Lines.lines_cons clean.1, Lines.chomp_eq_self plain]
  | crlf =>
      have decoded : lossyChars (content ++ (LineEnd.crlf.bytes ++ rest.take m)) =
          (lossyChars content ++ ['\r']) ++ '\n' :: lossyChars (rest.take m) := by
        rw [LineEnd.bytes, List.cons_append, lossyChars_append (by decide), List.append_assoc]
        congr 1
        have second := lossyChars_ascii (c := '\n') (by decide) (rest.take m)
        exact (lossyChars_ascii (c := '\r') (by decide) _).trans (congrArg ('\r' :: ·) second)
      have free : '\n' ∉ lossyChars content ++ ['\r'] := by
        rw [List.mem_append, List.mem_singleton]
        rintro (member | same)
        · exact clean.1 member
        · exact absurd same (by decide)
      rw [decoded, Lines.lines_cons free, Lines.chomp, List.getLast?_concat, if_pos rfl,
        List.dropLast_concat]

end HeaderLines

section Requests

def Visible (text : List Char) : Prop :=
  text ≠ [] ∧ ∀ c ∈ text, 0x21 ≤ c.toNat ∧ c.toNat ≤ 0x7E

structure Request where
  method : List Char
  target : List Char
  version : List Char
  lineEnd : LineEnd
  tail : Bytes
  methodVisible : Visible method
  targetVisible : Visible target
  versionVisible : Visible version

namespace Request

variable (request : Request)

def line : List Char := request.method ++ ' ' :: (request.target ++ ' ' :: request.version)

def bytes : Bytes := encode request.line ++ (request.lineEnd.bytes ++ request.tail)

/-- The credentials are right where some are asked for. -/
def Authorized (auth : Option InboundAuth) : Prop :=
  ∀ cred n, auth = some cred → hdrEnd request.bytes = some n →
    httpAuthOk (lossyChars (request.bytes.take n)) cred = true

end Request

theorem Visible.not_blank {text : List Char} (visible : Visible text) :
    ∀ c ∈ text, isWhitespace c = false := by
  intro c member
  obtain ⟨low, high⟩ := visible.2 c member
  have cases_ := ascii_cases (P := fun c : Char => (decide (0x21 ≤ c.toNat) →
    decide (c.toNat ≤ 0x7E) → isWhitespace c = false)) (by decide) (by omega : c.toNat < 128)
  exact cases_ (by simpa using low) (by simpa using high)

theorem Visible.inline {text : List Char} (visible : Visible text) : Inline (encode text) := by
  have free : ∀ {c : Char}, c.toNat < 0x21 → UInt8.ofNat c.toNat ∉ encode text := by
    intro c low member
    have bounds := visible.2 c (mem_of_mem_encode (by omega) member)
    omega
  exact ⟨@free '\n' (by decide), @free '\r' (by decide)⟩

theorem inline_append {front back : Bytes} (first : Inline front) (second : Inline back) :
    Inline (front ++ back) :=
  ⟨fun member => (List.mem_append.mp member).elim first.1 second.1,
    fun member => (List.mem_append.mp member).elim first.2 second.2⟩

theorem splitWhitespace_line (request : Request) :
    splitWhitespace request.line = [request.method, request.target, request.version] := by
  have some : ∀ {text : List Char}, Visible text → (!text.isEmpty) = true := by
    intro text visible
    simpa using visible.1
  rw [splitWhitespace, Request.line,
    List.splitOnP_append_cons_of_forall_mem request.methodVisible.not_blank ' ' (by decide),
    List.splitOnP_append_cons_of_forall_mem request.targetVisible.not_blank ' ' (by decide),
    List.splitOnP_eq_singleton request.versionVisible.not_blank]
  rw [List.filter_eq_self]
  intro text member
  simp only [List.mem_cons, List.not_mem_nil, or_false] at member
  rcases member with rfl | rfl | rfl
  · exact some request.methodVisible
  · exact some request.targetVisible
  · exact some request.versionVisible

theorem Request.inline (request : Request) : Inline (encode request.line) := by
  have blank : Inline (encode [' ']) := ⟨by decide, by decide⟩
  have split : encode request.line = encode request.method ++ (encode [' '] ++
      (encode request.target ++ (encode [' '] ++ encode request.version))) := by
    rw [← encode_append, ← encode_append, ← encode_append, ← encode_append]
    rfl
  rw [split]
  exact inline_append request.methodVisible.inline (inline_append blank
    (inline_append request.targetVisible.inline (inline_append blank request.versionVisible.inline)))

theorem respond_request (request : Request) {auth : Option InboundAuth}
    (authorized : request.Authorized auth) {n : Nat} (found : hdrEnd request.bytes = some n) :
    ∃ m, n = (encode request.line).length + request.lineEnd.bytes.length + m ∧
      (request.tail.head? ≠ some 13 → hdrEnd request.tail = some m) ∧
      respond auth request.bytes =
        (if request.method = "CONNECT".toList then
          some ⟨request.target, request.bytes.drop n⟩
        else
          match stripPrefix "http://".toList request.target with
          | some withoutScheme =>
              some ⟨(absoluteForm request.method withoutScheme request.version).1,
                (absoluteForm request.method withoutScheme request.version).2.payload
                  request.bytes n⟩
          | none => (findHost (lines (lossyChars (request.tail.take m)))).map fun host =>
              ⟨withPort host, request.bytes⟩) := by
  obtain ⟨m, rfl, later⟩ := hdrEnd_line request.inline found
  refine ⟨m, rfl, later, ?_⟩
  have header := @lines_header _ request.tail request.lineEnd request.inline m
  have line : lossyChars (encode request.line) = request.line := by
    have whole := lossyChars_encode_append request.line []
    rwa [List.append_nil, lossyChars, List.append_nil] at whole
  rw [line] at header
  have passed : ¬ (auth.any fun cred =>
      !httpAuthOk (lossyChars (request.bytes.take ((encode request.line).length +
        request.lineEnd.bytes.length + m))) cred) = true := by
    cases auth with
    | none => exact Bool.false_ne_true
    | some cred => simp [authorized cred _ rfl found]
  rw [respond, found, Option.bind_some, route, if_neg passed, Request.bytes, header]
  dsimp only
  rw [splitWhitespace_line]
  dsimp only
  by_cases connect : request.method = "CONNECT".toList
  · rw [if_pos connect, if_pos connect]
    rfl
  · rw [if_neg connect, if_neg connect]
    cases stripPrefix "http://".toList request.target with
    | some withoutScheme => rfl
    | none =>
        rw [Option.map_map]
        rfl

end Requests

section Authority

/-- A name, an IPv4 address or a bracketed literal. -/
def HostShape (host : List Char) : Prop :=
  (':' ∉ host ∧ host.head? ≠ some '[') ∨ ∃ inside, host = '[' :: (inside ++ [']'])

/-- Neither the user information nor the host has a delimiter of the authority. -/
def InAuthority (text : List Char) : Prop := ∀ c ∈ text, c ≠ '/' ∧ c ≠ '?' ∧ c ≠ '#' ∧ c ≠ '@'

def IsPort (port : Option (List Char)) : Prop :=
  ∀ digits, port = some digits → ∀ c ∈ digits, c.isDigit = true

/-- What a host and a port stand for: an empty port is none. -/
def dialTarget (host : List Char) : Option (List Char) → List Char
  | some (d :: digits) => host ++ ':' :: d :: digits
  | _ => host ++ [':', '8', '0']

theorem not_digit {port : Option (List Char)} (digits : IsPort port) {c : Char}
    (other : c.isDigit = false) (colon : c ≠ ':') : c ∉ portText port := by
  cases port with
  | none => exact List.not_mem_nil
  | some text =>
      intro member
      rcases List.mem_cons.mp member with same | inside
      · exact colon same
      · have digit := digits text rfl c inside
        rw [other] at digit
        cases digit

theorem colon_portText (port : Option (List Char)) : (portText port).contains ':' = port.isSome := by
  cases port with
  | none => rfl
  | some digits => simp [portText]

/-- A colon behind the host is seen, and none inside of it. -/
theorem hostHasExplicitPort_eq {host : List Char} (shape : HostShape host)
    {port : Option (List Char)} (digits : IsPort port) :
    hostHasExplicitPort (host ++ portText port) = port.isSome := by
  rcases shape with ⟨plain, front⟩ | ⟨inside, rfl⟩
  · have unbracketed : (host ++ portText port).head? ≠ some '[' := by
      cases host with
      | nil =>
          cases port with
          | none => exact fun none_ => (nomatch none_)
          | some text => exact fun same => absurd (Option.some.inj same) (by decide)
      | cons c rest => exact front
    rw [hostHasExplicitPort, if_neg unbracketed, ← colon_portText port,
      List.contains_eq_mem, List.contains_eq_mem]
    simp only [List.mem_append, plain, false_or]
  · have cut : rsplitOnce ']' ('[' :: (inside ++ [']']) ++ portText port) =
        some ('[' :: inside, portText port) := by
      have free := not_digit digits (c := ']') (by decide) (by decide)
      have split : '[' :: (inside ++ [']']) ++ portText port =
          ('[' :: inside) ++ ']' :: portText port := by simp
      rw [split]
      exact rsplitOnce_append _ free
    have front : ('[' :: (inside ++ [']']) ++ portText port).head? = some '[' := rfl
    rw [hostHasExplicitPort, if_pos front, cut]
    exact colon_portText port

theorem withPort_eq {host : List Char} (shape : HostShape host)
    {port : Option (List Char)} (digits : IsPort port) :
    withPort (host ++ portText port) = dialTarget host port ↔ port ≠ some [] := by
  rw [withPort, hostHasExplicitPort_eq shape digits]
  cases port with
  | none => simp [portText, dialTarget]
  | some text =>
      cases text with
      | nil => simp [portText, dialTarget]
      | cons d text => simp [portText, dialTarget]

end Authority

section Absolute

/-- An `http` URI with an authority. -/
structure AbsoluteUri where
  scheme : List Char
  userInfo : Option (List Char)
  host : List Char
  port : Option (List Char)
  rest : List Char
  schemeNamed : scheme.map Char.toLower = ['h', 't', 't', 'p']
  userInfoFree : ∀ info, userInfo = some info → InAuthority info
  hostFree : InAuthority host
  hostShape : HostShape host
  portShape : IsPort port
  restShape : rest = [] ∨ ∃ c more, rest = c :: more ∧ (c = '/' ∨ c = '?' ∨ c = '#')

namespace AbsoluteUri

variable (uri : AbsoluteUri)

def userText : Option (List Char) → List Char
  | none => []
  | some info => info ++ ['@']

def authority : List Char := userText uri.userInfo ++ (uri.host ++ portText uri.port)

def text : List Char := uri.scheme ++ (':' :: '/' :: '/' :: (uri.authority ++ uri.rest))

/-- The URI from its path on; an empty path is written as a slash. -/
def originForm : List Char := if uri.rest.head? = some '/' then uri.rest else '/' :: uri.rest

/-- Where the source agrees: a lower-case scheme, a path or nothing behind the
authority, and no port that is empty. -/
def Plain : Prop :=
  uri.scheme = ['h', 't', 't', 'p'] ∧ (uri.rest = [] ∨ uri.rest.head? = some '/') ∧
    uri.port ≠ some []

theorem authority_free : '/' ∉ uri.authority := by
  simp only [authority, List.mem_append, not_or]
  refine ⟨?_, fun member => (uri.hostFree '/' member).1 rfl,
    not_digit uri.portShape (by decide) (by decide)⟩
  cases info : uri.userInfo with
  | none => exact List.not_mem_nil
  | some text =>
      intro member
      rcases List.mem_append.mp member with inside | last
      · exact (uri.userInfoFree text info '/' inside).1 rfl
      · exact absurd (List.mem_singleton.mp last) (by decide)

theorem actualHost_authority : actualHost uri.authority = uri.host ++ portText uri.port := by
  have free : '@' ∉ uri.host ++ portText uri.port := by
    rw [List.mem_append, not_or]
    exact ⟨fun member => (uri.hostFree '@' member).2.2.2 rfl,
      not_digit uri.portShape (by decide) (by decide)⟩
  rw [actualHost, authority]
  cases uri.userInfo with
  | none =>
      rw [userText, List.nil_append, rsplitOnce_eq_none free]
  | some info =>
      have cut := rsplitOnce_append info free
      rw [userText, List.append_assoc, List.singleton_append, cut]

theorem stripPrefix_eq : stripPrefix "http://".toList uri.text =
    if uri.scheme = ['h', 't', 't', 'p'] then some (uri.authority ++ uri.rest) else none := by
  have letters : "http://".toList = ['h', 't', 't', 'p', ':', '/', '/'] := by decide
  have four : uri.scheme.length = 4 := by
    have length := congrArg List.length uri.schemeNamed
    rwa [List.length_map] at length
  rw [stripPrefix, letters]
  by_cases lower : uri.scheme = ['h', 't', 't', 'p']
  · rw [if_pos lower, text, lower, if_pos]
    · rfl
    · exact List.isPrefixOf_iff_prefix.mpr ⟨uri.authority ++ uri.rest, rfl⟩
  · rw [if_neg lower, if_neg]
    intro starts
    obtain ⟨tail, same⟩ := List.isPrefixOf_iff_prefix.mp starts
    have fronts := congrArg (List.take 4) same
    rw [text, ← four, List.take_left, four] at fronts
    exact lower fronts.symm

/-- The source cuts at the first slash, also behind a query. -/
theorem cut_at_slash (plain : uri.rest = [] ∨ uri.rest.head? = some '/') :
    (uri.authority ++ uri.rest).takeWhile (fun c => decide (c ≠ '/')) = uri.authority ∧
      (uri.authority ++ uri.rest).dropWhile (fun c => decide (c ≠ '/')) = uri.rest := by
  have all : ∀ c ∈ uri.authority, decide (c ≠ '/') = true := by
    intro c member
    rw [decide_eq_true_eq]
    rintro rfl
    exact uri.authority_free member
  rw [List.takeWhile_append_of_pos all, List.dropWhile_append_of_pos all]
  rcases plain with empty | slash
  · rw [empty]
    exact ⟨List.append_nil _, rfl⟩
  · obtain ⟨more, same⟩ : ∃ more, uri.rest = '/' :: more := by
      cases shape : uri.rest with
      | nil =>
          rw [shape] at slash
          cases slash
      | cons c more =>
          rw [shape] at slash
          exact ⟨more, by rw [Option.some.inj slash]⟩
    rw [same, List.takeWhile_cons_of_neg (by decide), List.dropWhile_cons_of_neg (by decide)]
    exact ⟨List.append_nil _, rfl⟩

def newUri : List Char :=
  let path := (uri.authority ++ uri.rest).dropWhile fun c => decide (c ≠ '/')
  if path.isEmpty then ['/'] else path

theorem newUri_plain (plain : uri.rest = [] ∨ uri.rest.head? = some '/') :
    uri.newUri = uri.originForm := by
  rw [newUri, (uri.cut_at_slash plain).2, originForm]
  rcases plain with empty | slash
  · rw [empty]
    rfl
  · have some : uri.rest.isEmpty ≠ true := by
      intro empty
      rw [List.isEmpty_iff.mp empty] at slash
      cases slash
    rw [if_pos slash, if_neg some]

theorem newUri_shorter (other : ¬ (uri.rest = [] ∨ uri.rest.head? = some '/')) :
    uri.newUri.length < uri.originForm.length := by
  obtain ⟨some, query⟩ := not_or.mp other
  have all : ∀ c ∈ uri.authority, decide (c ≠ '/') = true := by
    intro c member
    rw [decide_eq_true_eq]
    rintro rfl
    exact uri.authority_free member
  have positive := List.length_pos_iff.mpr some
  have shorter := (List.dropWhile_suffix (l := uri.rest) fun c => decide (c ≠ '/')).length_le
  rw [originForm, if_neg query, List.length_cons, newUri, List.dropWhile_append_of_pos all]
  split
  · rw [List.length_singleton]
    omega
  · omega

theorem absoluteForm_eq (plain : uri.rest = [] ∨ uri.rest.head? = some '/')
    (method version : List Char) :
    absoluteForm method (uri.authority ++ uri.rest) version =
      (withPort (uri.host ++ portText uri.port),
        .rewritten (method ++ ' ' :: (uri.originForm ++ ' ' :: version))) := by
  have path := uri.newUri_plain plain
  rw [newUri] at path
  simp only [absoluteForm, path, (uri.cut_at_slash plain).1, uri.actualHost_authority]

theorem absoluteForm_snd (method version : List Char) :
    (absoluteForm method (uri.authority ++ uri.rest) version).2 =
      .rewritten (method ++ ' ' :: (uri.newUri ++ ' ' :: version)) := rfl

end AbsoluteUri

/-- What is left out of a request line that ends without a carriage return. -/
theorem drop_firstLine (request : Request) {n : Nat} (found : hdrEnd request.bytes = some n) :
    ∃ skipped, request.bytes.drop ((endOf crlf request.bytes).getD n) =
        request.tail.drop skipped ∧
      (request.lineEnd = .crlf → skipped = 0) ∧
      (request.lineEnd = .lf → 2 ≤ skipped ∧ skipped ≤ request.tail.length) := by
  obtain ⟨m, line⟩ := flEnd_some found
  rw [line, Option.getD_some]
  have split : endOf crlf request.bytes =
      (endOf crlf (request.lineEnd.bytes ++ request.tail)).map
        ((encode request.line).length + ·) := endOf_free request.inline.2 _
  rw [line] at split
  obtain ⟨k, here, same⟩ := Option.map_eq_some_iff.mp split.symm
  rw [← same, Request.bytes, List.drop_length_add_append]
  cases ends : request.lineEnd with
  | crlf =>
      rw [ends] at here
      have two : endOf crlf (LineEnd.crlf.bytes ++ request.tail) = some 2 := endOf_here
      rw [two] at here
      cases here
      exact ⟨0, rfl, fun _ => rfl, fun other => (by cases other)⟩
  | lf =>
      rw [ends] at here
      have one : endOf crlf ([10] ++ request.tail) = (endOf crlf request.tail).map (1 + ·) :=
        @endOf_free _ _ [10] _ _ (by decide) request.tail
      rw [LineEnd.bytes, one] at here
      obtain ⟨skipped, inside, rfl⟩ := Option.map_eq_some_iff.mp here
      obtain ⟨low, high⟩ := endOf_bounds inside
      refine ⟨skipped, ?_, fun other => (by cases other), fun _ => ⟨low, high⟩⟩
      rw [LineEnd.bytes, Nat.add_comm, List.singleton_append, List.drop_succ_cons]

theorem encode_length {text : List Char} (ascii : ∀ c ∈ text, c.toNat < 128) :
    (encode text).length = text.length := by
  induction text with
  | nil => rfl
  | cons c rest ih =>
      rw [encode_cons, encode_ascii (ascii c List.mem_cons_self), List.length_append,
        List.length_singleton, List.length_cons, ih fun d member =>
          ascii d (List.mem_cons_of_mem _ member)]
      omega

def AbsoluteUri.dial (uri : AbsoluteUri) (request : Request) : Dial where
  target := dialTarget uri.host uri.port
  upstream := encode (request.method ++ ' ' :: (uri.originForm ++ ' ' :: request.version)) ++
    (request.lineEnd.bytes ++ request.tail)

variable {request : Request} {uri : AbsoluteUri}

theorem AbsoluteUri.rest_ascii (same : request.target = uri.text) :
    ∀ c ∈ uri.rest, c.toNat < 128 := by
  intro c member
  have inside : c ∈ request.target := by
    rw [same, text]
    simp only [List.mem_append, List.mem_cons]
    exact Or.inr (Or.inr (Or.inr (Or.inr (Or.inr member))))
  have bounds := request.targetVisible.2 c inside
  omega

/-- The rewritten lines differ in length as the URIs do. -/
theorem AbsoluteUri.line_lengths (same : request.target = uri.text) :
    (encode (request.method ++ ' ' :: (uri.newUri ++ ' ' :: request.version))).length +
        uri.originForm.length =
      (encode (request.method ++ ' ' :: (uri.originForm ++ ' ' :: request.version))).length +
        uri.newUri.length := by
  have rest := uri.rest_ascii same
  have origin : ∀ c ∈ uri.originForm, c.toNat < 128 := by
    intro c member
    rw [originForm] at member
    split at member
    · exact rest c member
    · rcases List.mem_cons.mp member with rfl | inside
      · decide
      · exact rest c inside
  have path : ∀ c ∈ uri.newUri, c.toNat < 128 := by
    intro c member
    have all : ∀ d ∈ uri.authority, decide (d ≠ '/') = true := by
      intro d inside
      rw [decide_eq_true_eq]
      rintro rfl
      exact uri.authority_free inside
    rw [newUri, List.dropWhile_append_of_pos all] at member
    split at member
    · rw [List.mem_singleton.mp member]
      decide
    · exact rest c ((List.dropWhile_suffix _).subset member)
  simp only [encode_append, encode_cons, List.length_append, encode_length origin,
    encode_length path]
  omega

/-- A request for an absolute URI is answered as it should be just where its URI is
plain and its line ends with a carriage return. -/
theorem respond_absolute_iff (same : request.target = uri.text)
    (other : request.method ≠ "CONNECT".toList) {auth : Option InboundAuth}
    (authorized : request.Authorized auth) {n : Nat} (found : hdrEnd request.bytes = some n) :
    respond auth request.bytes = some (uri.dial request) ↔
      uri.Plain ∧ request.lineEnd = .crlf := by
  obtain ⟨m, -, -, responded⟩ := respond_request request authorized found
  rw [if_neg other, same, uri.stripPrefix_eq] at responded
  obtain ⟨skipped, dropped, whole, cut⟩ := drop_firstLine request found
  by_cases lower : uri.scheme = ['h', 't', 't', 'p']
  · rw [if_pos lower] at responded
    dsimp only at responded
    have payload : (absoluteForm request.method (uri.authority ++ uri.rest) request.version).2.payload
        request.bytes n = encode (request.method ++ ' ' :: (uri.newUri ++ ' ' :: request.version)) ++
          crlf ++ request.tail.drop skipped := by
      rw [uri.absoluteForm_snd, Forward.payload, dropped]
    rw [payload] at responded
    rw [responded]
    constructor
    · intro agree
      rw [Option.some.injEq, AbsoluteUri.dial, Dial.mk.injEq] at agree
      obtain ⟨target, upstream⟩ := agree
      have sizes := congrArg List.length upstream
      have lines := AbsoluteUri.line_lengths same
      have two : crlf.length = 2 := rfl
      rw [List.length_append, List.length_append, List.length_append, List.length_append,
        List.length_drop, two] at sizes
      -- Lengths decide: a query without a path, or a line end of one byte, changes what is
      -- forwarded.
      have plain : uri.rest = [] ∨ uri.rest.head? = some '/' := by
        by_contra query
        have shorter := uri.newUri_shorter query
        cases ends : request.lineEnd with
        | crlf =>
            rw [ends, whole ends] at sizes
            have size : LineEnd.crlf.bytes.length = 2 := rfl
            omega
        | lf =>
            rw [ends] at sizes
            have size : LineEnd.lf.bytes.length = 1 := rfl
            have bounds := cut ends
            omega
      have ends : request.lineEnd = .crlf := by
        cases ends : request.lineEnd with
        | crlf => rfl
        | lf =>
            rw [ends] at sizes
            have size : LineEnd.lf.bytes.length = 1 := rfl
            have bounds := cut ends
            rw [uri.newUri_plain plain] at sizes
            omega
      rw [uri.absoluteForm_eq plain] at target
      exact ⟨⟨lower, plain, (withPort_eq uri.hostShape uri.portShape).mp target⟩, ends⟩
    · rintro ⟨⟨-, plain, port⟩, ends⟩
      have start := whole ends
      rw [uri.newUri_plain plain, start, List.drop_zero, AbsoluteUri.dial, ends,
        uri.absoluteForm_eq plain, (withPort_eq uri.hostShape uri.portShape).mpr port,
        List.append_assoc]
      rfl
  -- In other cases of the scheme the whole URI is taken for a path, which is too long.
  · rw [if_neg lower] at responded
    dsimp only at responded
    rw [responded]
    refine iff_of_false ?_ fun both => lower both.1.1
    intro agree
    obtain ⟨host, -, dialled⟩ := Option.map_eq_some_iff.mp agree
    have sizes := congrArg (fun dial => dial.upstream.length) dialled
    have rest := uri.rest_ascii same
    have target : (encode request.target).length = request.target.length :=
      encode_length fun c member => by
        have bounds := request.targetVisible.2 c member
        omega
    have origin : (encode uri.originForm).length ≤ uri.rest.length + 1 := by
      rw [AbsoluteUri.originForm]
      split
      · rw [encode_length rest]
        omega
      · rw [encode_cons, List.length_append, encode_length rest]
        have one : (String.utf8EncodeChar '/').length = 1 := by decide
        omega
    have long : uri.rest.length + 3 ≤ request.target.length := by
      rw [same, AbsoluteUri.text]
      simp only [List.length_append, List.length_cons]
      omega
    simp only [Request.bytes, Request.line, AbsoluteUri.dial, encode_append, encode_cons,
      List.length_append, target] at sizes
    omega

def portUri : AbsoluteUri where
  scheme := "http".toList
  userInfo := some ['u']
  host := "a.io".toList
  port := some "8080".toList
  rest := "/p".toList
  schemeNamed := by decide
  userInfoFree := by
    rintro _ ⟨⟩
    exact forall_of_all (by decide)
  hostFree := forall_of_all (by decide)
  hostShape := Or.inl ⟨by decide, by decide⟩
  portShape := by
    rintro _ ⟨⟩
    exact forall_of_all (by decide)
  restShape := Or.inr ⟨'/', ['p'], by decide, Or.inl rfl⟩

example : portUri.text = "http://u@a.io:8080/p".toList ∧
    portUri.originForm = "/p".toList := by
  decide

end Absolute

section Origin

/-- A request for a path, with a `Host` header. -/
structure OriginRequest where
  head : RequestHead
  path : List Char
  version : List Char
  behind : Bytes
  pathStart : path.head? = some '/'
  pathVisible : Visible path
  versionVisible : Visible version
  written : head.target = encode (path ++ ' ' :: version)
  hostShape : HostShape head.host
  notConnect : head.method ≠ "CONNECT".toList

theorem visible_of_token {name : List Char} (token : IsToken name) : Visible name :=
  ⟨token.1, fun c member => ⟨(token.2 c member).1, (token.2 c member).2.1⟩⟩

theorem head_of_token {name : List Char} (token : IsToken name) (rest : Bytes) :
    (encode name ++ rest).head? ≠ some 13 := by
  obtain ⟨c, more, rfl⟩ := List.exists_cons_of_ne_nil token.1
  have bounds := token.2 c List.mem_cons_self
  rw [encode_cons, encode_ascii (by omega)]
  intro same
  have number := congrArg UInt8.toNat (Option.some.inj same)
  rw [UInt8.toNat_ofNat', Nat.mod_eq_of_lt (by omega)] at number
  have thirteen : (13 : UInt8).toNat = 13 := rfl
  omega

theorem lossyChars_field (name : List Char) (value : Bytes) :
    lossyChars (encode name ++ 58 :: value) = name ++ ':' :: lossyChars value := by
  rw [lossyChars_encode_append]
  congr 1
  exact lossyChars_ascii (c := ':') (by decide) value

theorem token_no_colon {name : List Char} (token : IsToken name) : ':' ∉ name :=
  fun member => (token.2 ':' member).2.2 rfl

theorem sameName_host {name : List Char} :
    sameName name ['h', 'o', 's', 't'] = true ↔ IsHost name := by
  rw [sameName, decide_eq_true_eq]
  rfl

theorem findHost_fields {fields : List Field} (others : ∀ field ∈ fields, ¬ IsHost field.name)
    {rest : Bytes} (front : rest.head? ≠ some 13) {m : Nat}
    (found : hdrEnd (fields.flatMap Field.bytes ++ rest) = some m) :
    ∃ k, hdrEnd rest = some k ∧
      findHost (lines (lossyChars ((fields.flatMap Field.bytes ++ rest).take m))) =
        findHost (lines (lossyChars (rest.take k))) := by
  induction fields generalizing m with
  | nil => exact ⟨m, found, rfl⟩
  | cons field fields ih =>
      have split : (field :: fields).flatMap Field.bytes ++ rest =
          (encode field.name ++ 58 :: field.value) ++
            (field.lineEnd.bytes ++ (fields.flatMap Field.bytes ++ rest)) := by
        rw [List.flatMap_cons, Field.bytes]
        simp only [List.append_assoc, List.cons_append]
      have inline := field.token.inline_append (b := 58) (by decide) field.inline
      have next : (fields.flatMap Field.bytes ++ rest).head? ≠ some 13 := by
        cases fields with
        | nil => exact front
        | cons other more =>
            have whole : (other :: more).flatMap Field.bytes ++ rest = encode other.name ++
                ((58 :: (other.value ++ other.lineEnd.bytes)) ++
                  (more.flatMap Field.bytes ++ rest)) := by
              rw [List.flatMap_cons, Field.bytes]
              simp only [List.append_assoc]
            rw [whole]
            exact head_of_token other.token _
      rw [split] at found ⊢
      obtain ⟨k, rfl, later⟩ := hdrEnd_line inline found
      obtain ⟨last, ended, same⟩ :=
        ih (fun other member => others other (List.mem_cons_of_mem _ member)) (later next)
      obtain ⟨c, member, visible⟩ := field.token.visible
      have some := trim_ne_nil (List.mem_append_left (':' :: lossyChars field.value) member) visible
      have named : ¬ sameName field.name ['h', 'o', 's', 't'] = true :=
        fun same => others field List.mem_cons_self (sameName_host.mp same)
      refine ⟨last, ended, ?_⟩
      rw [lines_header inline, lossyChars_field, findHost, if_neg (by simpa using some),
        splitOnce_append (token_no_colon field.token)]
      dsimp only
      rw [if_neg named, same]

namespace OriginRequest

variable (origin : OriginRequest)

def request : Request where
  method := origin.head.method
  target := origin.path
  version := origin.version
  lineEnd := origin.head.requestEnd
  tail := origin.head.before.flatMap Field.bytes ++ (origin.head.hostLine ++ origin.behind)
  methodVisible := visible_of_token origin.head.methodToken
  targetVisible := origin.pathVisible
  versionVisible := origin.versionVisible

theorem host_front : (origin.head.hostLine ++ origin.behind).head? ≠ some 13 := by
  rw [RequestHead.hostLine, List.append_assoc]
  exact head_of_token origin.head.hostNamed.token _

theorem tail_front : origin.request.tail.head? ≠ some 13 := by
  rw [request]
  cases fields : origin.head.before with
  | nil => exact origin.host_front
  | cons field more =>
      dsimp only
      rw [List.flatMap_cons, Field.bytes, List.append_assoc, List.append_assoc]
      exact head_of_token field.token _

theorem findHost_hostLine {k : Nat}
    (found : hdrEnd (origin.head.hostLine ++ origin.behind) = some k) :
    findHost (lines (lossyChars ((origin.head.hostLine ++ origin.behind).take k))) =
      some (origin.head.host ++ portText origin.head.port) := by
  have split : origin.head.hostLine ++ origin.behind =
      (encode origin.head.hostName ++ 58 :: encode origin.head.value) ++
        (origin.head.hostEnd.bytes ++ origin.behind) := by
    rw [RequestHead.hostLine]
    simp only [List.append_assoc, List.cons_append]
  have token := origin.head.hostNamed.token
  have inline := token.inline_append (b := 58) (by decide) origin.head.value_inline
  rw [split] at found ⊢
  obtain ⟨m, rfl, -⟩ := hdrEnd_line inline found
  have value : lossyChars (encode origin.head.value) = origin.head.value := by
    have whole := lossyChars_encode_append origin.head.value []
    rwa [List.append_nil, lossyChars, List.append_nil] at whole
  obtain ⟨c, member, visible⟩ := token.visible
  have some := trim_ne_nil (List.mem_append_left (':' :: origin.head.value) member) visible
  have named : sameName origin.head.hostName ['h', 'o', 's', 't'] = true :=
    sameName_host.mpr origin.head.hostNamed
  rw [lines_header inline, lossyChars_field, value, findHost, if_neg (by simpa using some),
    splitOnce_append (token_no_colon token)]
  dsimp only
  rw [if_pos named, origin.head.trim_value]

/-- A request for a path is answered as it should be but for an empty port. -/
theorem respond_origin_iff {auth : Option InboundAuth}
    (authorized : origin.request.Authorized auth) {n : Nat}
    (found : hdrEnd origin.request.bytes = some n) :
    respond auth origin.request.bytes =
        some ⟨dialTarget origin.head.host origin.head.port, origin.request.bytes⟩ ↔
      origin.head.port ≠ some [] := by
  obtain ⟨m, -, later, responded⟩ := respond_request origin.request authorized found
  obtain ⟨k, ended, passed⟩ :=
    findHost_fields origin.head.others origin.host_front (later origin.tail_front)
  have path : stripPrefix "http://".toList origin.path = none := by
    rw [stripPrefix, if_neg]
    intro starts
    obtain ⟨tail, same⟩ := List.isPrefixOf_iff_prefix.mp starts
    have letters : "http://".toList = ['h', 't', 't', 'p', ':', '/', '/'] := by decide
    have first := origin.pathStart
    rw [← same, letters] at first
    exact absurd (Option.some.inj first) (by decide)
  have none_ : stripPrefix "http://".toList origin.request.target = none := path
  have host : findHost (lines (lossyChars (origin.request.tail.take m))) =
      some (origin.head.host ++ portText origin.head.port) :=
    passed.trans (origin.findHost_hostLine ended)
  have other : ¬ origin.request.method = "CONNECT".toList := origin.notConnect
  rw [if_neg other, none_] at responded
  dsimp only at responded
  rw [responded, host, Option.map_some, Option.some.injEq, Dial.mk.injEq, and_iff_left rfl]
  exact withPort_eq origin.hostShape origin.head.portDigits

end OriginRequest

def pathRequest : OriginRequest where
  head := { literalRequest with
    target := encode "/x HTTP/1.1".toList
    host := "a.io".toList
    port := some "8080".toList
    targetInline := ⟨by decide, by decide⟩
    hostPart := ⟨forall_of_all (by decide), Or.inl (by decide)⟩
    portDigits := by
      rintro _ ⟨⟩
      exact forall_of_all (by decide) }
  path := "/x".toList
  version := "HTTP/1.1".toList
  behind := [13, 10]
  pathStart := by decide
  pathVisible := ⟨by decide, forall_of_all (by decide)⟩
  versionVisible := ⟨by decide, forall_of_all (by decide)⟩
  written := by decide
  hostShape := Or.inl ⟨by decide, by decide⟩
  notConnect := by decide

example : handleHttp none [pathRequest.request.bytes] =
    some ⟨"a.io:8080".toList, pathRequest.request.bytes⟩ := by
  decide +kernel

end Origin

section Exactness

def queryRequest : Request where
  method := ['G', 'E', 'T']
  target := "http://a.io?q".toList
  version := "HTTP/1.1".toList
  lineEnd := .crlf
  tail := [13, 10]
  methodVisible := ⟨by decide, forall_of_all (by decide)⟩
  targetVisible := ⟨by decide, forall_of_all (by decide)⟩
  versionVisible := ⟨by decide, forall_of_all (by decide)⟩

/-- The query is dialled, and a path that was not asked for is. -/
theorem query_dialled : ∃ request : Request, request.target = "http://a.io?q".toList ∧
    handleHttp none [request.bytes] =
      some ⟨"a.io?q:80".toList, encode "GET / HTTP/1.1\r\n\r\n".toList⟩ :=
  ⟨queryRequest, rfl, by decide +kernel⟩

/-- The cut of the stream matters just to an acceptable header block that ends
between the limit and the reach of a read beyond it. Of what is read, a tunnel gets
its target and the bytes behind the header block; a request for an absolute URI is
rewritten as it should be just where the URI is plain and its line ends with a
carriage return; a request for a path is sent on unchanged to its host. -/
theorem http_requests_iff (auth : Option InboundAuth) (sent : Bytes) :
    ((∀ chunks chunks', IsCut sent chunks → IsCut sent chunks' →
        handleHttp auth chunks = handleHttp auth chunks') ↔
      ∀ n, hdrEnd sent = some n → 8193 < n → n ≤ 9216 →
        ¬ Accepts auth (lossyChars (sent.take n))) ∧
    (∀ (n : Nat) (chunks : List Bytes), hdrEnd sent = some n → n ≤ 8193 →
      IsCut sent chunks → (readHead [] chunks).isSome) ∧
    (∀ (request : Request) (n : Nat) (chunks : List Bytes),
      hdrEnd request.bytes = some n → request.Authorized auth → IsCut request.bytes chunks →
      (readHead [] chunks).isSome →
      (request.method = "CONNECT".toList →
        handleHttp auth chunks = some ⟨request.target, request.bytes.drop n⟩) ∧
      (request.method ≠ "CONNECT".toList → ∀ uri : AbsoluteUri, request.target = uri.text →
        (handleHttp auth chunks = some (uri.dial request) ↔
          uri.Plain ∧ request.lineEnd = .crlf))) ∧
    ∀ (origin : OriginRequest) (n : Nat) (chunks : List Bytes),
      hdrEnd origin.request.bytes = some n → origin.request.Authorized auth →
      IsCut origin.request.bytes chunks → (readHead [] chunks).isSome →
      (handleHttp auth chunks =
          some ⟨dialTarget origin.head.host origin.head.port, origin.request.bytes⟩ ↔
        origin.head.port ≠ some []) := by
  refine ⟨cuts_agree_iff, ?_, ?_, ?_⟩
  · intro n chunks found small cut
    have positive := (endOf_bounds found).1
    have four : (crlf ++ crlf).length = 4 := rfl
    refine readHead_small (n := n) ?_ small ?_
    · rw [List.nil_append, cut.whole, found]
    · rw [List.length_nil]
      omega
  · intro request n chunks found authorized cut read
    rw [handleHttp_eq cut, if_pos read]
    refine ⟨fun connect => ?_, fun other uri same => ?_⟩
    · obtain ⟨m, -, -, responded⟩ := respond_request request authorized found
      rw [if_pos connect] at responded
      exact responded
    · exact respond_absolute_iff same other authorized found
  · intro origin n chunks found authorized cut read
    rw [handleHttp_eq cut, if_pos read]
    exact origin.respond_origin_iff authorized found

end Exactness

end Mirage.HttpProxy
