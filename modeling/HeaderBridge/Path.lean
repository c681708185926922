import HeaderBridge.Text

namespace HeaderBridge.Path

def here : Text := "."

def up : Text := ".."

def isRooted (p : Text) : Bool := p.head? == some '/'

def parts (p : Text) : List Text := (Text.splitAt '/' p).filter fun c => !c.isEmpty && c != here

def push (rooted : Bool) (seen : List Text) (part : Text) : List Text :=
  if part == up then
    match seen with
    | [] => if rooted then [] else [up]
    | last :: rest => if last == up then up :: seen else rest
  else part :: seen

/-- The parts with every `..` resolved that has something to cancel. -/
def cleanParts (p : Text) : List Text := ((parts p).foldl (push (isRooted p)) []).reverse

def clean (p : Text) : Text :=
  let body := Text.join "/" (cleanParts p)
  if isRooted p then "/" ++ body else body.orElse here

def join (ps : List Text) : Text :=
  let ps := ps.filter (!·.isEmpty)
  if ps.isEmpty then [] else clean (Text.join "/" ps)

def tail (p : Text) : Text := (Text.splitAt '/' p).getLast?.getD []

def base (p : Text) : Text :=
  if p.isEmpty then here else (tail (Text.dropTrailing '/' p)).orElse "/"

def dir (p : Text) : Text := clean (p.take (p.length - (tail p).length))

def extension (p : Text) : Text :=
  if (tail p).contains '.' then "." ++ (Text.splitAt '.' (tail p)).getLast?.getD [] else []

def absolute (work p : Text) : Text := if isRooted p then clean p else join [work, p]

def dropCommon : List Text → List Text → List Text × List Text
  | a :: as, b :: bs => if a == b then dropCommon as bs else (a :: as, b :: bs)
  | as, bs => (as, bs)

/-- A path from `root` to `p`; none if only the disk could tell. -/
def relative? (root p : Text) : Option Text :=
  if clean root == clean p then some here
  else if isRooted root != isRooted p then none
  else
    let target := if clean p == here then [here] else cleanParts p
    let (left, rest) := dropCommon (cleanParts root) target
    if left.head? == some up then none
    else some (Text.join "/" (left.map (fun _ => up) ++ rest))

def relative (root p : Text) : Text := (relative? root p).getD p

end HeaderBridge.Path
