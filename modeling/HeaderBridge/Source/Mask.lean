import HeaderBridge.Source.Token

namespace HeaderBridge

def blankByte (b : UInt8) : UInt8 := if b == newline then b else ' '

def blankKinds (p : TokenKind → Bool) (t : Text) : Text :=
  (Lexeme.ofText t).flatMap fun l => if p l.kind then l.text.map blankByte else l.text

/-- Blanks comments, directives and literals: what is left is code. -/
def mask (t : Text) : Text := blankKinds (fun k => k.isComment || k.isLiteral) t

def stripComments (t : Text) : Text := blankKinds TokenKind.isComment t

end HeaderBridge
