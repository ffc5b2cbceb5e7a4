import SceneLang.Node

/-!
# Equality of trees

Whether two trees agree in everything, locations included.
-/

namespace SceneLang

def sameList {α : Type} (same : α → α → Bool) : List α → List α → Bool
  | [], [] => true
  | a :: as, b :: bs => same a b && sameList same as bs
  | _, _ => false

/-- Do two tables have the same names with the same values? -/
def Table.same {α : Type} (same : α → α → Bool) (a b : Table α) : Bool :=
  sameList (fun x y => x.1 = y.1 && same x.2 y.2) a b

def TraitConfig.same (a b : TraitConfig) : Bool :=
  sameList Value.same a.args b.args && Table.same Value.same a.config b.config

def LogicBlock.same (a b : LogicBlock) : Bool :=
  a.functions = b.functions && a.handlers = b.handlers &&
    Table.same Value.same a.values b.values

def MachineState.same (a b : MachineState) : Bool :=
  a.name = b.name && a.onEntry = b.onEntry && a.onExit = b.onExit &&
    Table.same Value.same a.properties b.properties

def StateMachine.same (a b : StateMachine) : Bool :=
  a.initial = b.initial && sameList MachineState.same a.states b.states &&
    a.transitions = b.transitions

def NodeKind.same : NodeKind → NodeKind → Bool
  | .element type source, .element type' source' => type = type' && source = source'
  | .fragment, .fragment => true
  | .composition keyword, .composition keyword' => keyword = keyword'
  | .logic block, .logic block' => block.same block'
  | .template params, .template params' => params = params'
  | .environment, .environment => true
  | .stateMachine machine, .stateMachine machine' => machine.same machine'
  | .function params body, .function params' body' => params = params' && body = body'
  | _, _ => false

mutual

def Node.same : Node → Node → Bool
  | ⟨kind, name, id, children, properties, spreads, directives, traits, exported, loc⟩, b =>
      kind.same b.kind && name = b.name && id = b.id && Node.sameAll children b.children &&
        Table.same Value.same properties b.properties &&
        sameList Value.same spreads b.spreads && Directive.sameAll directives b.directives &&
        Table.same TraitConfig.same traits b.traits && exported = b.exported && loc = b.loc

def Node.sameAll : List Node → List Node → Bool
  | [], [] => true
  | a :: as, b :: bs => a.same b && Node.sameAll as bs
  | _, _ => false

def Directive.same : Directive → Directive → Bool
  | .trait name config, .trait name' config' => name = name' && config.same config'
  | .generic name config, .generic name' config' => name = name' && config.same config'
  | .lifecycle hook params body, .lifecycle hook' params' body' =>
      hook = hook' && params = params' && body = body'
  | .state properties, .state properties' => Table.same Value.same properties properties'
  | .bindings table, .bindings table' => Table.same Value.same table table'
  | .loop form item iterable body, .loop form' item' iterable' body' =>
      form = form' && item = item' && iterable = iterable' && Node.sameAll body body'
  | .whileLoop condition body, .whileLoop condition' body' =>
      condition = condition' && Node.sameAll body body'
  | .conditional condition body none, .conditional condition' body' none =>
      condition = condition' && Node.sameAll body body'
  | .conditional condition body (some elseBody),
      .conditional condition' body' (some elseBody') =>
      condition = condition' && Node.sameAll body body' && Node.sameAll elseBody elseBody'
  | .imports decl, .imports decl' => decl = decl'
  | .setting which config, .setting which' config' =>
      which = which' && config.same config'
  | .topic which subject config, .topic which' subject' config' =>
      which = which' && subject = subject' && config.same config'
  | _, _ => false

def Directive.sameAll : List Directive → List Directive → Bool
  | [], [] => true
  | a :: as, b :: bs => a.same b && Directive.sameAll as bs
  | _, _ => false

end

end SceneLang
