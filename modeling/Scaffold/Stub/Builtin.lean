import Scaffold.Stub.Placeholder

/-! The stubs that are there without a project's own. The two composition stubs are method
bodies; filled in, they hold the word `class` nowhere, since the doc block of a class is looked
for by that word. -/

namespace Scaffold.Stub
open Text

def page (rows : List String) : Text :=
  rows.flatMap fun row => row.toList ++ ['\n']

def model : Text := page
  ["<?php",
   "",
   "namespace \x7b\x7b namespace \x7d\x7d;",
   "",
   "use Illuminate\\Database\\Eloquent\\Factories\\HasFactory;",
   "use Illuminate\\Database\\Eloquent\\Model;",
   "",
   "class \x7b\x7b class \x7d\x7d extends Model",
   "\x7b",
   "    use HasFactory;",
   "\x7d"]

def collection : Text := page
  ["<?php",
   "",
   "namespace \x7b\x7b namespace \x7d\x7d;",
   "",
   "use Illuminate\\Database\\Eloquent\\Collection;",
   "",
   "class \x7b\x7b class \x7d\x7d extends Collection",
   "\x7b",
   "    //",
   "\x7d"]

def queryBuilder : Text := page
  ["<?php",
   "",
   "namespace \x7b\x7b namespace \x7d\x7d;",
   "",
   "use Illuminate\\Database\\Eloquent\\Builder;",
   "",
   "class \x7b\x7b class \x7d\x7d extends Builder",
   "\x7b",
   "    //",
   "\x7d"]

def collectionComposition : Text := page
  ["    /**",
   "     * Create a new Eloquent Collection instance.",
   "     *",
   "     * @param  array<int, \\Illuminate\\Database\\Eloquent\\Model>  $models",
   "     */",
   "    public function newCollection(array $models = []): \x7b\x7b class \x7d\x7d",
   "    \x7b",
   "        return new \x7b\x7b class \x7d\x7d($models);",
   "    \x7d"]

def queryBuilderComposition : Text := page
  ["    /**",
   "     * Create a new Eloquent query builder for the model.",
   "     *",
   "     * @param  \\Illuminate\\Database\\Query\\Builder  $query",
   "     */",
   "    public function newEloquentBuilder($query): \x7b\x7b class \x7d\x7d",
   "    \x7b",
   "        return new \x7b\x7b class \x7d\x7d($query);",
   "    \x7d"]

def modelName : Text := "model".toList
def collectionName : Text := "collection".toList
def queryBuilderName : Text := "query-builder".toList
def collectionCompositionName : Text := "collection.composition".toList
def queryBuilderCompositionName : Text := "query-builder.composition".toList

def builtin : List (Text × Text) :=
  [(modelName, model), (collectionName, collection), (queryBuilderName, queryBuilder),
   (collectionCompositionName, collectionComposition),
   (queryBuilderCompositionName, queryBuilderComposition)]

def builtin? (name : Text) : Option Text :=
  builtin.lookup name

end Scaffold.Stub
