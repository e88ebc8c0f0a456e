import NativeBridge.Vm

/-!
# Modules and functions of a machine

Modules and functions are only ever added. A module comes with a function that owns its
top-level code and is not in its map of functions. The functions of a native library are attached
to a module all together, or not at all if the module already has one of the names.
-/

namespace NativeBridge

namespace Vm

variable {σ : Type}

/-- The name of the function that owns the top-level code of a module. -/
def initName : String := "<init>"

/-- The module of a name. -/
def getModule (vm : Vm σ) (name : String) : Option Handle := vm.modules.get? name

/-- The module that `h` addresses. -/
def module? (vm : Vm σ) (h : Handle) : Option Module :=
  match vm.object? h with
  | some (.module m) => some m
  | _ => none

/-- The function of a name in the module of a name. -/
def getFunction (vm : Vm σ) (module name : String) : Option Handle :=
  (vm.getModule module).bind fun h => (vm.module? h).bind fun m => m.functions.get? name

/-- The function of a name in the module that `module` addresses. -/
def getFunctionIn (vm : Vm σ) (module : Handle) (name : String) :
    Except BridgeError (Option Handle) :=
  match vm.object? module with
  | some (.module m) => .ok (m.functions.get? name)
  | some other => .error (.badHandle (.addresses module other.kind .module))
  | none => .error (.badHandle (.addressesNothing module .module))

/-- The function that `h` addresses. -/
def function (vm : Vm σ) (h : Handle) : Except BridgeError (Function σ) :=
  match vm.object? h with
  | some (.function f) => .ok f
  | some other => .error (.badHandle (.addresses h other.kind .function))
  | none => .error (.badHandle (.addressesNothing h .function))

/-- Adds a module without functions, and the function of its top-level code. -/
def createModule (vm : Vm σ) (name : String) : Handle × Vm σ :=
  let (module, table) := vm.table.insert (.module ⟨name, .empty, Handle.null⟩)
  let body : ScriptBody σ := fun _ => .done (r := .script) (Except.ok none)
  let (init, table) := table.insert (.function ⟨initName, module, 0, .script body⟩)
  (module, { vm with
    table := table.set module (.module ⟨name, .empty, init⟩)
    modules := vm.modules.set name module })

/-- Adds a function to a module. -/
def addFunction (vm : Vm σ) (module : Handle) (name : String) (argc : UInt64) (body : Body σ) :
    Handle × Vm σ :=
  let (function, table) := vm.table.insert (.function ⟨name, module, argc, body⟩)
  let vm := { vm with table := table }
  match vm.module? module with
  | some m =>
    (function, { vm with
      table := table.set module
        (.module { m with functions := m.functions.set name function }) })
  | none => (function, vm)

/-- Adds native functions to a module, in order. -/
def addFunctions (vm : Vm σ) (module : Handle) (fs : List (String × NativeFunction σ)) : Vm σ :=
  fs.foldl (fun vm f => (vm.addFunction module f.1 f.2.argc (.native f.2.body)).2) vm

/-- Defines a module without functions under a valid name that is not taken. -/
def defineModule (vm : Vm σ) (name : String) : Except LoadError Handle × Vm σ :=
  if !validName name then (.error (.invalidName name), vm)
  else if vm.modules.contains name then (.error (.duplicateModule name), vm)
  else
    let (module, vm) := vm.createModule name
    (.ok module, vm.record (.moduleDefined name module))

/-- Defines a script function under a valid name that the module has not given yet. -/
def defineScript (vm : Vm σ) (module : Handle) (name : String) (argc : UInt64)
    (body : ScriptBody σ) : Except LoadError Handle × Vm σ :=
  if !validName name then (.error (.invalidName name), vm)
  else
    match vm.module? module with
    | none => (.error (.bridge (.badHandle (.isNot module .module))), vm)
    | some m =>
      if m.functions.contains name then (.error (.duplicateFunction m.name name), vm)
      else
        let (function, vm) := vm.addFunction module name argc (.script body)
        (.ok function, vm)

/-- Adds the functions of a library to an existing module and records the loading. -/
def attach (vm : Vm σ) (name : String) (module : Handle)
    (library : FunctionTable (NativeFunction σ)) (rejected : Nat) :
    Except LoadError Handle × Vm σ :=
  (.ok module,
    (vm.addFunctions module library.entries).record
      (.libraryLoaded name library.size rejected))

/-- Attaches the functions of a library to the module of a name, which is created if there is
none. If the module has one of the names already, the first such name is reported and nothing is
attached. -/
def attachLibrary (vm : Vm σ) (name : String) (library : FunctionTable (NativeFunction σ))
    (rejected : Nat) : Except LoadError Handle × Vm σ :=
  match vm.getModule name with
  | none =>
    let (module, vm) := vm.createModule name
    vm.attach name module library rejected
  | some module =>
    match vm.module? module with
    | none => (.error (.bridge (.badHandle (.isNot module .module))), vm)
    | some m =>
      match library.names.find? m.functions.contains with
      | some taken => (.error (.duplicateFunction name taken), vm)
      | none => vm.attach name module library rejected

end Vm

end NativeBridge
