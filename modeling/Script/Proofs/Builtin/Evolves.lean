import Script.Proofs.Builtin.Limits

/-!
# What built-in operations do to the heap

`Heap.Evolves` lists the ways in which the operators, methods and functions of the language change
the heap: they make new lists, dictionaries, sets, byte arrays and errors, change the contents of
those that exist, and link errors to causes. They touch neither the functions and classes that a
program has defined nor its instances.
-/

namespace Script

namespace Heap

/-- What a heap can become by built-in operations. -/
inductive Evolves : Heap → Heap → Prop where
  | refl (heap : Heap) : Evolves heap heap
  | trans {first second third : Heap} :
      Evolves first second → Evolves second third → Evolves first third
  | mark (heap : Heap) : Evolves heap { heap with nextMark := heap.nextMark + 1 }
  | newList (heap : Heap) (items : Array Value) :
      Evolves heap { heap with lists := heap.lists.push items }
  | newDict (heap : Heap) (dict : Dict) : Evolves heap { heap with dicts := heap.dicts.push dict }
  | newSet (heap : Heap) (keys : List Value) :
      Evolves heap { heap with sets := heap.sets.push keys }
  | newBytearray (heap : Heap) (bytes : List UInt8) :
      Evolves heap { heap with bytearrays := heap.bytearrays.push bytes }
  | newError (heap : Heap) (kind : ErrorKind) (arguments : List String) :
      Evolves heap
        { heap with
          lists := heap.lists.push #[]
          errors := heap.errors.push ⟨kind, arguments, heap.lists.next, none, none, false⟩ }
  | setList (heap : Heap) (id : ListId) (change : Array Value → Array Value) :
      Evolves heap { heap with lists := heap.lists.modify id change }
  | setDict (heap : Heap) (id : DictId) (change : Dict → Dict) :
      Evolves heap { heap with dicts := heap.dicts.modify id change }
  | setSet (heap : Heap) (id : SetId) (change : List Value → List Value) :
      Evolves heap { heap with sets := heap.sets.modify id change }
  | setBytearray (heap : Heap) (id : ByteArrayId) (change : List UInt8 → List UInt8) :
      Evolves heap { heap with bytearrays := heap.bytearrays.modify id change }
  | setCause (heap : Heap) (id : ErrorId) (cause : Option ErrorId) :
      Evolves heap
        { heap with
          errors := heap.errors.modify id fun error =>
            { error with cause := cause, suppressContext := true } }

/-- Built-in operations leave all functions as they are. -/
theorem Evolves.functions_eq {heap after : Heap} (h : heap.Evolves after) :
    after.functions = heap.functions := by
  induction h with
  | trans _ _ ih ih' => exact ih'.trans ih
  | _ => rfl

/-- Built-in operations leave all classes as they are. -/
theorem Evolves.classes_eq {heap after : Heap} (h : heap.Evolves after) :
    after.classes = heap.classes := by
  induction h with
  | trans _ _ ih ih' => exact ih'.trans ih
  | _ => rfl

/-- Built-in operations leave all instances as they are. -/
theorem Evolves.instances_eq {heap after : Heap} (h : heap.Evolves after) :
    after.instances = heap.instances := by
  induction h with
  | trans _ _ ih ih' => exact ih'.trans ih
  | _ => rfl

/-- Built-in operations leave the limit on the depth of calls as it is. -/
theorem Evolves.max_depth_eq {heap after : Heap} (h : heap.Evolves after) :
    after.maxDepth = heap.maxDepth := by
  induction h with
  | trans _ _ ih ih' => exact ih'.trans ih
  | _ => rfl

/-- Whatever the limits are, a heap changes only in these ways. -/
theorem Changes.evolves {limits : Limits} {heap after : Heap} (h : heap.Changes limits after) :
    heap.Evolves after := by
  induction h with
  | refl heap => exact .refl heap
  | trans _ _ ih ih' => exact ih.trans ih'
  | mark heap => exact .mark heap
  | newList heap items => exact .newList heap items
  | newDict heap dict => exact .newDict heap dict
  | newSet heap keys => exact .newSet heap keys
  | newBytearray heap bytes => exact .newBytearray heap bytes
  | newError heap kind arguments => exact .newError heap kind arguments
  | setList heap _ change => exact .setList heap _ change
  | setDict heap _ change => exact .setDict heap _ change
  | setSet heap _ change => exact .setSet heap _ change
  | setBytearray heap _ change => exact .setBytearray heap _ change
  | addNote heap _ note => exact .setList heap _ _
  | setCause heap _ cause => exact .setCause heap _ cause

end Heap

end Script
