import DocHeader.Text.Quoted

/-!
# Strict UTF-8

Bytes read as text. Decoding accepts the well-formed sequences only and says, for
the first ill-formed one, where its longest well-formed beginning lies and why it
stops there.

## Main definitions

* `Utf8.Fault` — the first ill-formed sequence, with its `message`.
* `Utf8.decode` — the text of a byte sequence.
-/

namespace DocHeader.Utf8

/-- Why a byte sequence is not well formed. -/
inductive Reason where
  | startByte
  | continuationByte
  | truncated
  deriving DecidableEq, Repr

/-- The wording of a reason. -/
def Reason.message : Reason → String
  | .startByte => "invalid start byte"
  | .continuationByte => "invalid continuation byte"
  | .truncated => "unexpected end of data"

/-- An ill-formed sequence: its first byte, its position and its extent. -/
structure Fault where
  lead : Nat
  position : Nat
  extent : Nat
  reason : Reason
  deriving DecidableEq, Repr

/-- The message that names the offending byte, or the positions of several. -/
def Fault.message (f : Fault) : String :=
  let place :=
    if f.extent ≤ 1 then
      s!"byte 0x{String.ofList (Text.hexadecimal 2 f.lead)} in position {f.position}"
    else s!"bytes in position {f.position}-{f.position + f.extent - 1}"
  s!"'utf-8' codec can't decode {place}: {f.reason.message}"

/-- Whether a byte continues a sequence. -/
def isContinuation (b : UInt8) : Bool := 0x80 ≤ b.toNat && b.toNat ≤ 0xbf

/-- Whether `b` may follow the lead byte: a continuation byte that makes the sequence
neither overlong, nor a surrogate, nor larger than the last code point. -/
def mayFollow (lead b : UInt8) : Bool :=
  isContinuation b &&
    (if lead == 0xe0 then 0xa0 ≤ b.toNat
     else if lead == 0xed then b.toNat ≤ 0x9f
     else if lead == 0xf0 then 0x90 ≤ b.toNat
     else if lead == 0xf4 then b.toNat ≤ 0x8f
     else true)

/-- The low six bits of a continuation byte. -/
def payload (b : UInt8) : Nat := b.toNat % 64

/-- Decode the bytes from `position` on. -/
def decodeFrom (position : Nat) : List UInt8 → Except Fault (List Char)
  | [] => .ok []
  | lead :: rest =>
    let fault (extent : Nat) (reason : Reason) : Except Fault (List Char) :=
      .error ⟨lead.toNat, position, extent, reason⟩
    let n := lead.toNat
    if n < 0x80 then (decodeFrom (position + 1) rest).map (Char.ofNat n :: ·)
    else if n < 0xc2 || 0xf4 < n then fault 1 .startByte
    else match rest with
      | [] => fault 1 .truncated
      | b :: rest =>
        if !mayFollow lead b then fault 1 .continuationByte
        else if n < 0xe0 then
          (decodeFrom (position + 2) rest).map (Char.ofNat ((n - 0xc0) * 64 + payload b) :: ·)
        else match rest with
          | [] => fault 2 .truncated
          | c :: rest =>
            if !isContinuation c then fault 2 .continuationByte
            else if n < 0xf0 then
              (decodeFrom (position + 3) rest).map
                (Char.ofNat (((n - 0xe0) * 64 + payload b) * 64 + payload c) :: ·)
            else match rest with
              | [] => fault 3 .truncated
              | d :: rest =>
                if !isContinuation d then fault 3 .continuationByte
                else
                  (decodeFrom (position + 4) rest).map
                    (Char.ofNat
                      ((((n - 0xf0) * 64 + payload b) * 64 + payload c) * 64 + payload d) :: ·)

/-- The text of a byte sequence, or its first fault. -/
def decode (bytes : List UInt8) : Except Fault String :=
  (decodeFrom 0 bytes).map String.ofList

/-- The number of bytes of a text. -/
def byteCount (s : String) : Nat := s.utf8ByteSize

end DocHeader.Utf8
