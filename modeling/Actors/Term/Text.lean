import Actors.Term.Typed
import Actors.Text.Layout
import Actors.Text.Quoted

/-! Texts of terms and exit reasons. A term inside a term, and the content of an exit reason, print
as themselves; an interrupt is always written on one line. -/
namespace Actors
open Text

mutual

def Term.render (layout : Layout) : Term → String
  | .unit => "()"
  | .bool b => if b then "true" else "false"
  | .int _ n => toString n
  | .float x => x.text
  | .char c => quotedChar c
  | .str s => quoted s
  | .string s => quoted s
  | .atom a => a.text
  | .bytes bs => layout.sequence (bs.map fun b => toString b.toNat)
  | .list ts => layout.sequence (Term.renderList layout ts)
  | .option t => Term.renderOption layout t
  | .pair a b => layout.tuple "" [a.render layout, b.render layout]
  | .term t => t.render layout
  | .exit e => e.render layout
  | .interrupt kind reason => kind.name ++ ":" ++ reason.render .compact
  | .identity i => i.text
  | .phase p => p.name
  | .reference i => i.text
  | .handle _ i => i.text
  | .exitMessage sender reason =>
    layout.record "ExitMessage" [("from", sender.text), ("exit", reason.render layout)]

def Term.renderList (layout : Layout) : List Term → List String
  | [] => []
  | t :: ts => t.render layout :: Term.renderList layout ts

def Term.renderOption (layout : Layout) : Option Term → String
  | none => "None"
  | some t => layout.tuple "Some" [t.render layout]

def Exit.render (layout : Layout) : Exit → String
  | .atom a => a.text
  | .term t => t.render layout

end

def Term.text (t : Term) : String := t.render .compact

def Term.typedText (t : Term) : String := t.type.name ++ ":" ++ t.text

def Exit.text (e : Exit) : String := e.render .compact

def Exit.typedText : Exit → String
  | .atom a => "atom:" ++ a.text
  | .term t => "term:" ++ t.typedText

def Interrupt.text (i : Interrupt) : String := i.kind.name ++ ":" ++ i.reason.text

end Actors
