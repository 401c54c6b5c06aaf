import InkCompositor.Toml.Reader

/-!
# TOML strings

Between double quotes a backslash begins an escape; between single quotes
every character stands for itself. Three quotes begin a string that may hold
ends of lines, and one or two of the quotes in a row.
-/

set_option autoImplicit false

namespace InkCompositor.Toml

def codePoint? (width : Nat) (cs : List Char) : Option (Char × List Char) :=
  let digits := cs.take width
  let code := ofDigits 16 digits
  if digits.length = width ∧ digits.all (isDigit 16) ∧ code.isValidChar then
    some (.ofNat code, cs.drop width)
  else none

def escape? : List Char → Option (Char × List Char)
  | 'b' :: rest => some ('\x08', rest)
  | 't' :: rest => some ('\t', rest)
  | 'n' :: rest => some ('\n', rest)
  | 'f' :: rest => some ('\x0c', rest)
  | 'r' :: rest => some ('\r', rest)
  | '"' :: rest => some ('"', rest)
  | '\\' :: rest => some ('\\', rest)
  | 'u' :: rest => codePoint? 4 rest
  | 'U' :: rest => codePoint? 8 rest
  | _ => none

def basicChar : Reader Char
  | '\\' :: rest => escape? rest
  | cs => Reader.char (fun c => isText c && c != '"') cs

def literalChar : Reader Char := Reader.char fun c => isText c && c != '\''

def closed (quote : Char) (char : Reader Char) (cs : List Char) : Option (String × List Char) :=
  match Reader.many char cs with
  | (text, c :: rest) => if c = quote then some (.ofList text, rest) else none
  | (_, []) => none

/-- A character, the end of a line or a few quotes. A backslash at the end of
a line stands for nothing, and so do the blanks and empty lines behind it. -/
def longPiece (quote : Char) (char : Reader Char) : Reader (List Char) := fun cs =>
  match newline? cs with
  | some rest => some (['\n'], rest)
  | none =>
    let quotes := cs.takeWhile (· == quote)
    if 0 < quotes.length then
      if quotes.length ≤ 2 then some (quotes, cs.drop quotes.length) else none
    else (char cs).map fun (c, rest) => ([c], rest)

def continuation : Reader (List Char)
  | '\\' :: rest => (newline? (skipBlanks rest)).map fun rest => ([], skipWhite rest)
  | _ => none

/-- Pieces up to three closing quotes, before which one or two more may stand
that belong to the text. An end of line at the very beginning does not. -/
def longClosed (quote : Char) (piece : Reader (List Char)) (cs : List Char) :
    Option (String × List Char) :=
  let (pieces, rest) := Reader.many piece ((newline? cs).getD cs)
  let run := (rest.takeWhile (· == quote)).length
  if run < 3 then none
  else
    let extra := min (run - 3) 2
    some (.ofList (pieces.flatten ++ List.replicate extra quote), rest.drop (3 + extra))

def shortString : Reader String
  | '"' :: rest => closed '"' basicChar rest
  | '\'' :: rest => closed '\'' literalChar rest
  | _ => none

def string : Reader String
  | '"' :: '"' :: '"' :: rest => longClosed '"' (continuation.or (longPiece '"' basicChar)) rest
  | '\'' :: '\'' :: '\'' :: rest => longClosed '\'' (longPiece '\'' literalChar) rest
  | cs => shortString cs

end InkCompositor.Toml
