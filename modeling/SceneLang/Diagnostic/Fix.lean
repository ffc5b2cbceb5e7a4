import SceneLang.Diagnostic
import SceneLang.Text.Slice

/-!
# Applying fixes

Fixes are applied from the back of the text to its front, so that the offsets of those
still to come stay valid.  The text is held in two parts: a front that no fix has touched,
and a back that is finished.  A fix that does not lie within the front, between characters,
is passed over.
-/

namespace SceneLang

/-- Fixes that start later come first; of those that start together, longer ones. -/
def QuickFix.comesBefore (a b : QuickFix) : Bool :=
  b.span.start < a.span.start || (a.span.start = b.span.start && b.span.stop ≤ a.span.stop)

def QuickFix.apply (fix : QuickFix) (parts : List Char × List Char) : List Char × List Char :=
  if fix.span.stop < fix.span.start then parts
  else
    match Text.cut? fix.span.stop parts.1 with
    | none => parts
    | some (head, tail) =>
        match Text.cut? fix.span.start head with
        | none => parts
        | some (kept, _) => (kept, fix.replacement.toList ++ tail ++ parts.2)

/-- The text with all fixes applied that do not get in each other's way. -/
def applyFixes (source : List Char) (fixes : List QuickFix) : List Char :=
  let ordered := fixes.mergeSort QuickFix.comesBefore
  let (front, back) := ordered.foldl (fun parts fix => fix.apply parts) (source, [])
  front ++ back

end SceneLang
