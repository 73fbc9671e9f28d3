import Mathlib.Algebra.GroupWithZero.Nat
import Mirage.Lib.Buffer
import Mirage.Lib.Cut
import Mirage.Lib.Lines
import Mirage.Lib.Occurrence
import Mirage.Lib.Utf8
import Mirage.Tunnel.Cipher

/-!
The HTTP branch of `handle_client` in proxy/mixed.rs: the header is read chunk by
chunk, and what is dialled and sent there is taken from it. What the client sends
later follows unchanged.
-/

namespace Mirage.HttpProxy
open Word Text Utf8 Cut Occurrence
open Lines (lines)
open Tunnel (isWhitespace trim)

section Source

def hostHasExplicitPort (host : List Char) : Bool :=
  if host.head? = some '[' then
    match rsplitOnce ']' host with
    | some (_, back) => back.contains ':'
    | none => false
  else host.contains ':'

def b64Val (c : UInt8) : Option Nat :=
  let n := c.toNat
  if 65 ≤ n ∧ n ≤ 90 then some (n - 65)
  else if 97 ≤ n ∧ n ≤ 122 then some (n - 97 + 26)
  else if 48 ≤ n ∧ n ≤ 57 then some (n - 48 + 52)
  else if n = 43 then some 62
  else if n = 47 then some 63
  else none

/-- Up to four digits of six bits, the first one the highest. -/
def b64Chunk (chunk : Bytes) : Option Bytes :=
  if chunk.length < 2 then none
  else do
    let values ← chunk.mapM b64Val
    let acc := (values.zipIdx.map fun value => value.1 * 2 ^ (18 - 6 * value.2)).sum
    return ([acc / 2 ^ 16, acc / 2 ^ 8, acc].take (chunk.length - 1)).map UInt8.ofNat

def isAsciiWhitespace (b : UInt8) : Bool := b ∈ [9, 10, 12, 13, 32]

def b64Decode (s : List Char) : Option Bytes :=
  let src := (encode s).filter fun b => !isAsciiWhitespace b && b ≠ 61
  ((Buffer.pieces 4 src).mapM b64Chunk).map List.flatten

structure InboundAuth where
  username : String
  password : String

def InboundAuth.verify (self : InboundAuth) (username password : Bytes) : Bool :=
  username = utf8 self.username && password = utf8 self.password

/-- `eq_ignore_ascii_case` -/
def sameName (name other : List Char) : Bool := name.map Char.toLower = other.map Char.toLower

def authLine (cred : InboundAuth) (line : List Char) : Bool :=
  match splitOnce ':' line with
  | none => false
  | some (name, value) =>
      if !sameName (trim name) "proxy-authorization".toList then false
      else
        let value := trim value
        match (stripPrefix "Basic ".toList value).or (stripPrefix "basic ".toList value) with
        | none => false
        | some b64 =>
            match b64Decode (trim b64) with
            | none => false
            | some raw =>
                match raw.idxOf? 58 with
                | none => false
                | some pos => cred.verify (raw.take pos) (raw.drop (pos + 1))

def httpAuthOk (header : List Char) (cred : InboundAuth) : Bool :=
  (lines header).any (authLine cred)

def crlf : Bytes := [13, 10]

def hdrEnd (buf : Bytes) : Option Nat := endOf (crlf ++ crlf) buf

def splitWhitespace (text : List Char) : List (List Char) :=
  (text.splitOnP isWhitespace).filter (!·.isEmpty)

/-- The value of the first `Host` header. -/
def findHost : List (List Char) → Option (List Char)
  | [] => none
  | line :: rest =>
      if (trim line).isEmpty then none
      else
        match splitOnce ':' line with
        | some (k, v) => if sameName k ['h', 'o', 's', 't'] then some (trim v) else findHost rest
        | none => findHost rest

def withPort (host : List Char) : List Char :=
  if hostHasExplicitPort host then host else host ++ [':', '8', '0']

/-- What of the bytes that are read is sent on. -/
inductive Forward where
  | behindHeader
  | rewritten (firstLine : List Char)
  | unchanged
  deriving DecidableEq

def actualHost (hostPart : List Char) : List Char :=
  match rsplitOnce '@' hostPart with
  | some (_, back) => back
  | none => hostPart

def absoluteForm (method withoutScheme version : List Char) : List Char × Forward :=
  let hostPart := withoutScheme.takeWhile (· ≠ '/')
  let path := withoutScheme.dropWhile (· ≠ '/')
  let newUri := if path.isEmpty then ['/'] else path
  (withPort (actualHost hostPart), .rewritten (method ++ ' ' :: (newUri ++ ' ' :: version)))

def route (auth : Option InboundAuth) (header : List Char) : Option (List Char × Forward) :=
  if auth.any fun cred => !httpAuthOk header cred then none
  else
    match lines header with
    | [] => none
    | firstLine :: lines =>
        match splitWhitespace firstLine with
        | method :: uri :: version :: _ =>
            if method = "CONNECT".toList then some (uri, .behindHeader)
            else
              match stripPrefix "http://".toList uri with
              | some withoutScheme => some (absoluteForm method withoutScheme version)
              | none => (findHost lines).map fun host => (withPort host, .unchanged)
        | _ => none

def Forward.payload (headerBuf : Bytes) (hdrEnd : Nat) : Forward → Bytes
  | .behindHeader => headerBuf.drop hdrEnd
  | .rewritten firstLine =>
      let flEnd := (endOf crlf headerBuf).getD hdrEnd
      encode firstLine ++ crlf ++ headerBuf.drop flEnd
  | .unchanged => headerBuf

structure Dial where
  target : List Char
  upstream : Bytes
  deriving DecidableEq

def respond (auth : Option InboundAuth) (headerBuf : Bytes) : Option Dial :=
  (hdrEnd headerBuf).bind fun hdrEnd =>
    (route auth (lossyChars (headerBuf.take hdrEnd))).map fun routed =>
      ⟨routed.1, routed.2.payload headerBuf hdrEnd⟩

/-- The read loop, and what is not read when it ends. -/
def readHead (headerBuf : Bytes) : List Bytes → Option (Bytes × List Bytes)
  | [] => none
  | chunk :: rest =>
      let headerBuf := headerBuf ++ chunk
      if (hdrEnd headerBuf).isSome then some (headerBuf, rest)
      else if 8192 < headerBuf.length then none
      else readHead headerBuf rest

def handleHttp (auth : Option InboundAuth) (chunks : List Bytes) : Option Dial :=
  (readHead [] chunks).bind fun read =>
    (respond auth read.1).map fun dial => ⟨dial.target, dial.upstream ++ read.2.flatten⟩

end Source

section Reads

/-- What a connection sends until it is closed, as it is read. -/
structure IsCut (sent : Bytes) (chunks : List Bytes) : Prop where
  whole : chunks.flatten = sent
  sizes : ∀ chunk ∈ chunks, chunk ≠ [] ∧ chunk.length ≤ 1024

variable {auth : Option InboundAuth} {sent buf more : Bytes} {chunks : List Bytes} {n : Nat}

theorem hdrEnd_front (found : hdrEnd (buf ++ more) = some n) :
    hdrEnd buf = if n ≤ buf.length then some n else none :=
  endOf_front (by decide) found

theorem flEnd_some (found : hdrEnd buf = some n) : ∃ m, endOf crlf buf = some m := by
  obtain ⟨front, rest, rfl⟩ := exists_of_endOf found
  cases missing : endOf crlf (front ++ (crlf ++ crlf ++ rest)) with
  | some m => exact ⟨m, rfl⟩
  | none =>
      have inside : endOf crlf (crlf ++ (crlf ++ rest)) = some 2 := endOf_here
      rw [List.append_assoc] at missing
      rw [endOf_back_none missing] at inside
      cases inside

/-- What follows a header block is sent on behind it. -/
theorem respond_append (found : hdrEnd buf = some n) :
    respond auth (buf ++ more) =
      (respond auth buf).map fun dial => ⟨dial.target, dial.upstream ++ more⟩ := by
  have inside := (endOf_bounds found).2
  have still : hdrEnd (buf ++ more) = some n := endOf_append found
  obtain ⟨m, line⟩ := flEnd_some found
  have lineInside := (endOf_bounds line).2
  rw [respond, respond, still, found, Option.bind_some, Option.bind_some,
    List.take_append_of_le_length inside, Option.map_map]
  congr 1
  funext routed
  rw [Function.comp_apply]
  congr 1
  cases routed.2 with
  | behindHeader => exact List.drop_append_of_le_length inside
  | rewritten firstLine =>
      rw [Forward.payload, Forward.payload, endOf_append line, line, Option.getD_some,
        List.drop_append_of_le_length lineInside]
      simp only [List.append_assoc]
  | unchanged => rfl

theorem readHead_some {read : Bytes × List Bytes} (head : readHead buf chunks = some read) :
    read.1 ++ read.2.flatten = buf ++ chunks.flatten ∧ ∃ m, hdrEnd read.1 = some m := by
  induction chunks generalizing buf with
  | nil => cases head
  | cons chunk rest ih =>
      rw [readHead] at head
      rw [List.flatten_cons, ← List.append_assoc]
      split at head
      · rename_i found
        cases head
        exact ⟨rfl, Option.isSome_iff_exists.mp found⟩
      · split at head
        · cases head
        · exact ih head

/-- Every cut gives what the whole gives, or nothing. -/
theorem handleHttp_eq (cut : IsCut sent chunks) :
    handleHttp auth chunks = if (readHead [] chunks).isSome then respond auth sent else none := by
  rw [handleHttp]
  cases head : readHead [] chunks with
  | none => rfl
  | some read =>
      obtain ⟨whole, m, found⟩ := readHead_some head
      rw [List.nil_append, cut.whole] at whole
      rw [Option.bind_some, ← whole, respond_append found]
      rfl

theorem readHead_small (found : hdrEnd (buf ++ chunks.flatten) = some n) (small : n ≤ 8193)
    (missing : buf.length < n) : (readHead buf chunks).isSome := by
  induction chunks generalizing buf with
  | nil =>
      have bounds := endOf_bounds found
      rw [List.flatten_nil, List.append_nil] at bounds
      omega
  | cons chunk rest ih =>
      rw [List.flatten_cons, ← List.append_assoc] at found
      rw [readHead, hdrEnd_front found]
      by_cases inside : n ≤ (buf ++ chunk).length
      · rw [if_pos inside]
        rfl
      · rw [if_neg inside, if_neg (by decide), if_neg (by omega)]
        exact ih found (Nat.not_le.mp inside)

theorem readHead_large (found : hdrEnd (buf ++ chunks.flatten) = some n) (large : 9216 < n)
    (before : buf.length ≤ 8192) (sizes : ∀ chunk ∈ chunks, chunk ≠ [] ∧ chunk.length ≤ 1024) :
    readHead buf chunks = none := by
  induction chunks generalizing buf with
  | nil => rfl
  | cons chunk rest ih =>
      have size := (sizes chunk List.mem_cons_self).2
      rw [List.flatten_cons, ← List.append_assoc] at found
      have short : ¬ n ≤ (buf ++ chunk).length := by
        rw [List.length_append]
        omega
      rw [readHead, hdrEnd_front found, if_neg short, if_neg (by decide)]
      by_cases tooLarge : 8192 < (buf ++ chunk).length
      · rw [if_pos tooLarge]
      · rw [if_neg tooLarge]
        exact ih found (Nat.not_lt.mp tooLarge) fun other member =>
          sizes other (List.mem_cons_of_mem _ member)

theorem readHead_none (missing : hdrEnd (buf ++ chunks.flatten) = none) :
    readHead buf chunks = none := by
  induction chunks generalizing buf with
  | nil => rfl
  | cons chunk rest ih =>
      rw [List.flatten_cons, ← List.append_assoc] at missing
      have here : hdrEnd (buf ++ chunk) = none := endOf_front_none missing
      rw [readHead, here, if_neg (by decide)]
      split
      · rfl
      · exact ih missing

open Buffer (pieces pieces_nil pieces_cut flatten_pieces mem_pieces)

theorem isCut_pieces (sent : Bytes) : IsCut sent (pieces 1024 sent) where
  whole := flatten_pieces (by decide) sent
  sizes _ member := mem_pieces member

/-- Full reads meet the limit exactly, and the next one reaches over it. -/
theorem readHead_full {buf data : Bytes} (found : hdrEnd (buf ++ data) = some n) (within : n ≤ 9216)
    (aligned : buf.length % 1024 = 0) (missing : buf.length < n) :
    (readHead buf (pieces 1024 data)).isSome := by
  have bound := (endOf_bounds found).2
  rw [List.length_append] at bound
  have some : data ≠ [] := by
    rintro rfl
    rw [List.length_nil] at bound
    omega
  have cut := @List.take_append_drop _ 1024 data
  rw [← cut, ← List.append_assoc] at found
  rw [pieces_cut some (by decide), readHead, hdrEnd_front found]
  by_cases inside : n ≤ (buf ++ data.take 1024).length
  · rw [if_pos inside]
    rfl
  · have short := inside
    rw [List.length_append, List.length_take] at short
    have full : (buf ++ data.take 1024).length = buf.length + 1024 := by
      rw [List.length_append, List.length_take]
      omega
    have under : ¬ 8192 < (buf ++ data.take 1024).length := by omega
    rw [if_neg inside, if_neg (by decide), if_neg under]
    exact readHead_full found within (by omega) (by omega)
termination_by data.length
decreasing_by
  have positive := List.length_pos_iff.mpr some
  rw [List.length_drop]
  omega

/-- Full reads behind one byte pass the limit by one. -/
theorem readHead_shifted {buf data : Bytes} (found : hdrEnd (buf ++ data) = some n)
    (beyond : 8193 < n) (shifted : buf.length % 1024 = 1) (before : buf.length ≤ 8192) :
    readHead buf (pieces 1024 data) = none := by
  have bound := (endOf_bounds found).2
  rw [List.length_append] at bound
  have some : data ≠ [] := by
    rintro rfl
    rw [List.length_nil] at bound
    omega
  have cut := @List.take_append_drop _ 1024 data
  rw [← cut, ← List.append_assoc] at found
  have full : (buf ++ data.take 1024).length = buf.length + 1024 := by
    rw [List.length_append, List.length_take]
    omega
  have short : ¬ n ≤ (buf ++ data.take 1024).length := by omega
  rw [pieces_cut some (by decide), readHead, hdrEnd_front found, if_neg short, if_neg (by decide)]
  by_cases tooLarge : 8192 < (buf ++ data.take 1024).length
  · rw [if_pos tooLarge]
  · rw [if_neg tooLarge]
    exact readHead_shifted found beyond (by omega) (by omega)
termination_by data.length
decreasing_by
  have positive := List.length_pos_iff.mpr some
  rw [List.length_drop]
  omega

/-- What the header block has to have: a request line of three parts, what is to be
dialled, and credentials if they are asked for. -/
def Accepts (auth : Option InboundAuth) (header : List Char) : Prop :=
  (∀ cred, auth = some cred → httpAuthOk header cred = true) ∧
    ∃ firstLine rest method uri version more, lines header = firstLine :: rest ∧
      splitWhitespace firstLine = method :: uri :: version :: more ∧
        (method = "CONNECT".toList ∨ (∃ withoutScheme,
          stripPrefix "http://".toList uri = some withoutScheme) ∨
            ∃ host, findHost rest = some host)

theorem route_isSome_iff {header : List Char} :
    (route auth header).isSome ↔ Accepts auth header := by
  have credentials : (auth.any fun cred => !httpAuthOk header cred) = true ↔
      ¬ ∀ cred, auth = some cred → httpAuthOk header cred = true := by
    cases auth <;> simp
  rw [route]
  by_cases refused : (auth.any fun cred => !httpAuthOk header cred) = true
  · rw [if_pos refused]
    exact iff_of_false (by decide) fun accepts => credentials.mp refused accepts.1
  rw [if_neg refused, Accepts, and_iff_right (by_contra fun bad => refused (credentials.mpr bad))]
  cases cut : lines header with
  | nil => simp
  | cons firstLine rest =>
      dsimp only
      match parts : splitWhitespace firstLine with
      | [] => simp [parts]
      | [_] => simp [parts]
      | [_, _] => simp [parts]
      | method :: uri :: version :: more =>
          dsimp only
          by_cases connect : method = "CONNECT".toList
          · rw [if_pos connect]
            exact iff_of_true rfl ⟨_, _, _, _, _, _, rfl, parts, Or.inl connect⟩
          · rw [if_neg connect]
            constructor
            · intro routed
              refine ⟨_, _, _, _, _, _, rfl, parts, Or.inr ?_⟩
              cases scheme : stripPrefix "http://".toList uri with
              | some withoutScheme => exact Or.inl ⟨withoutScheme, rfl⟩
              | none =>
                  rw [scheme, Option.isSome_map] at routed
                  exact Or.inr (Option.isSome_iff_exists.mp routed)
            · rintro ⟨_, _, _, _, _, _, same, again, kind⟩
              cases same
              rw [parts] at again
              cases again
              rcases kind with same | ⟨withoutScheme, scheme⟩ | ⟨host, found⟩
              · exact absurd same connect
              · rw [scheme]
                rfl
              · cases stripPrefix "http://".toList uri with
                | some withoutScheme => rfl
                | none =>
                    rw [found]
                    rfl

/-- The cut matters just to a header block that is accepted and ends between the
limit and the reach of a read beyond it. -/
theorem cuts_agree_iff :
    (∀ chunks chunks', IsCut sent chunks → IsCut sent chunks' →
      handleHttp auth chunks = handleHttp auth chunks') ↔
    ∀ n, hdrEnd sent = some n → 8193 < n → n ≤ 9216 →
      ¬ Accepts auth (lossyChars (sent.take n)) := by
  have responds : ∀ n, hdrEnd sent = some n → ((respond auth sent).isSome ↔
      Accepts auth (lossyChars (sent.take n))) := by
    intro n found
    rw [respond, found, Option.bind_some, Option.isSome_map, route_isSome_iff]
  constructor
  · intro agree n found beyond within accepts
    have bound := (endOf_bounds found).2
    have all := @readHead_full n [] sent found within rfl (by rw [List.length_nil]; omega)
    cases sent with
    | nil => cases found
    | cons b rest =>
        -- One byte first, so that the last read under the limit does not reach the end.
        have shifted : IsCut (b :: rest) ([b] :: pieces 1024 rest) := by
          refine ⟨?_, ?_⟩
          · rw [List.flatten_cons, flatten_pieces (by decide)]
            rfl
          · intro chunk member
            rcases List.mem_cons.mp member with rfl | later
            · exact ⟨List.cons_ne_nil _ _, by rw [List.length_singleton]; decide⟩
            · exact mem_pieces later
        have late : readHead [] ([b] :: pieces 1024 rest) = none := by
          have here := @hdrEnd_front [b] rest n found
          have short : ¬ n ≤ [b].length := by
            rw [List.length_singleton]
            omega
          have under : ¬ 8192 < [b].length := by
            rw [List.length_singleton]
            decide
          rw [if_neg short] at here
          rw [readHead, List.nil_append, here, if_neg (by decide), if_neg under]
          exact @readHead_shifted n [b] rest found beyond rfl (by rw [List.length_singleton]; decide)
        have same := agree _ _ (isCut_pieces _) shifted
        rw [handleHttp_eq (isCut_pieces _), handleHttp_eq shifted, late, if_pos all,
          if_neg (by decide)] at same
        have responded := (responds n found).mpr accepts
        rw [same] at responded
        cases responded
  · intro spared chunks chunks' cut cut'
    rw [handleHttp_eq cut, handleHttp_eq cut']
    cases found : hdrEnd sent with
    | none =>
        rw [readHead_none (by rw [List.nil_append, cut.whole]; exact found),
          readHead_none (by rw [List.nil_append, cut'.whole]; exact found)]
    | some n =>
        have positive := (endOf_bounds found).1
        have four : (crlf ++ crlf).length = 4 := rfl
        have start : ∀ {chunks}, IsCut sent chunks →
            hdrEnd ([] ++ chunks.flatten) = some n := by
          intro chunks cut
          rw [List.nil_append, cut.whole, found]
        by_cases small : n ≤ 8193
        · rw [if_pos (readHead_small (start cut) small (by rw [List.length_nil]; omega)),
            if_pos (readHead_small (start cut') small (by rw [List.length_nil]; omega))]
        · by_cases large : 9216 < n
          · rw [readHead_large (start cut) large (by decide) cut.sizes,
              readHead_large (start cut') large (by decide) cut'.sizes]
          -- In between some cuts read the whole block and others do not: then it must be refused
          -- anyway.
          · have refused : respond auth sent = none := by
              rw [← Option.not_isSome_iff_eq_none, responds n found]
              exact spared n found (by omega) (by omega)
            rw [refused, ite_self, ite_self]

end Reads

end Mirage.HttpProxy
