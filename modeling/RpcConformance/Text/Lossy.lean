import RpcConformance.Bytes
/-!
Reading bytes as text when they need not be text: every maximal ill-formed part becomes one
replacement character, and well-formed text is read as it is (`lossy_ofString`).
-/
namespace RpcConformance.Text

/-- The character that stands for an ill-formed part. -/
def replacement : Char := '\ufffd'

def isContinuation (b : UInt8) : Bool := 0x80 ≤ b && b ≤ 0xbf

/-- Whether `c` may follow the lead byte `b`: no overlong form, no surrogate, nothing above U+10FFFF. -/
def mayFollow (b c : UInt8) : Bool :=
  if b == 0xe0 then 0xa0 ≤ c && c ≤ 0xbf
  else if b == 0xed then 0x80 ≤ c && c ≤ 0x9f
  else if b == 0xf0 then 0x90 ≤ c && c ≤ 0xbf
  else if b == 0xf4 then 0x80 ≤ c && c ≤ 0x8f
  else isContinuation c

def continuationBits (b : UInt8) : Nat := b.toNat % 64

/-- The character at the head of `b :: rest`, and how many bytes of `rest` belong to it; an
ill-formed head takes its maximal part. -/
def decodeHead (b : UInt8) (rest : Bytes) : Char × Nat :=
  if b < 0x80 then (Char.ofNat b.toNat, 0)
  else if 0xc2 ≤ b && b ≤ 0xdf then
    match rest with
    | c :: _ => if isContinuation c then
        (Char.ofNat (b.toNat % 32 * 64 + continuationBits c), 1) else (replacement, 0)
    | [] => (replacement, 0)
  else if 0xe0 ≤ b && b ≤ 0xef then
    match rest with
    | c :: rest' => if mayFollow b c then
        match rest' with
        | d :: _ => if isContinuation d then
            (Char.ofNat ((b.toNat % 16 * 64 + continuationBits c) * 64 + continuationBits d), 2)
          else (replacement, 1)
        | [] => (replacement, 1)
      else (replacement, 0)
    | [] => (replacement, 0)
  else if 0xf0 ≤ b && b ≤ 0xf4 then
    match rest with
    | c :: rest' => if mayFollow b c then
        match rest' with
        | d :: rest'' => if isContinuation d then
            match rest'' with
            | e :: _ => if isContinuation e then
                (Char.ofNat (((b.toNat % 8 * 64 + continuationBits c) * 64 + continuationBits d) * 64
                  + continuationBits e), 3)
              else (replacement, 2)
            | [] => (replacement, 2)
          else (replacement, 1)
        | [] => (replacement, 1)
      else (replacement, 0)
    | [] => (replacement, 0)
  else (replacement, 0)

def repairedChars : Bytes → List Char
  | [] => []
  | b :: rest => (decodeHead b rest).1 :: repairedChars (rest.drop (decodeHead b rest).2)
termination_by bs => bs.length
decreasing_by simp only [List.length_drop, List.length_cons]; omega

/-- The text of a byte string, ill-formed parts replaced. -/
def lossy (bs : Bytes) : String := (Bytes.text? bs).getD (String.ofList (repairedChars bs))

@[simp] theorem lossy_ofString (s : String) : lossy (Bytes.ofString s) = s := by simp [lossy]

end RpcConformance.Text
