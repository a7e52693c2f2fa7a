/-!
# Base64

Three bytes are four letters of six bits each; a rest of one or two bytes is
filled with zero bits and closed with equal signs.
-/

namespace CallPlan.Text.Base64

def letter (n : Nat) : Char :=
  if n < 26 then Char.ofNat (65 + n)
  else if n < 52 then Char.ofNat (71 + n)
  else if n < 62 then Char.ofNat (n - 4)
  else if n = 62 then '+' else '/'

def encode : List UInt8 → List Char
  | [] => []
  | [a] =>
    [letter (a.toNat / 4), letter (a.toNat % 4 * 16), '=', '=']
  | [a, b] =>
    [letter (a.toNat / 4), letter (a.toNat % 4 * 16 + b.toNat / 16), letter (b.toNat % 16 * 4), '=']
  | a :: b :: c :: rest =>
    letter (a.toNat / 4) :: letter (a.toNat % 4 * 16 + b.toNat / 16) ::
      letter (b.toNat % 16 * 4 + c.toNat / 64) :: letter (c.toNat % 64) :: encode rest

def encodeText (bytes : List UInt8) : String :=
  String.ofList (encode bytes)

example : encodeText [] = "" := rfl
example : encodeText [0xff] = "/w==" := by decide
example : encodeText [0xff, 0xfe, 0x3e] = "//4+" := by decide

end CallPlan.Text.Base64
