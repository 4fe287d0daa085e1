import ExtendedQuery.Bytes
import ExtendedQuery.Text.Combining
import ExtendedQuery.Text.Printable

/-!
# Quoted text

Text, bytes and lists are shown in logs between delimiters. In a text the quote, the backslash and the
characters that show nothing of their own or combine with the one before them are escaped; bytes are shown
as ASCII, those without a visible form by two hexadecimal digits.
-/

namespace ExtendedQuery.Text

def hexDigits (n : Nat) : Text := Nat.toDigits 16 n

def quotedChar (c : Char) : Text :=
  if c = '"' then ['\x5c', '"']
  else if c = '\x5c' then ['\x5c', '\x5c']
  else if c = '\n' then ['\x5c', 'n']
  else if c = '\r' then ['\x5c', 'r']
  else if c = '\t' then ['\x5c', 't']
  else if c = '\x00' then ['\x5c', '0']
  else if isPrintable c && !isCombining c then [c]
  else ['\x5c', 'u', '\x7b'] ++ hexDigits c.toNat ++ ['\x7d']

def quoted (text : Text) : Text := '"' :: text.flatMap quotedChar ++ ['"']

def quotedByte (b : UInt8) : Text :=
  if 0x20 ≤ b.toNat ∧ b.toNat ≤ 0x7E then [Char.ofNat b.toNat]
  else ['\x5c', 'x', (b.toNat / 16).digitChar, (b.toNat % 16).digitChar]

def quotedBytes (bytes : Bytes) : Text := ['b', '"'] ++ bytes.flatMap quotedByte ++ ['"']

def listed (entries : List Text) : Text := '[' :: [',', ' '].intercalate entries ++ [']']

end ExtendedQuery.Text
