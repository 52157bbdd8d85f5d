-- SUMMARY: The modules built into the runtime, as source.

/-!
# Built-in modules

The bundle sets up the globals that scripts find; the library is the module that scripts import.
-/

namespace Esm.Startup

/-- The name of the bundle that sets up the globals. -/
def bundleName : String := "@tjs/bundle"

/-- The name of the standard library. -/
def libraryName : String := "@tjs/std"

def bundleSource : String :=
  "\n".intercalate [
    "// Runtime globals installed before any user code runs.",
    "",
    "const core = globalThis.__tjs_core ?? \x7b\x7d;",
    "",
    "function defineGlobal(name, value) \x7b",
    "    Object.defineProperty(globalThis, name, \x7b",
    "        enumerable: false,",
    "        configurable: true,",
    "        writable: true,",
    "        value,",
    "    \x7d);",
    "\x7d",
    "",
    "defineGlobal('queueMicrotask', (callback) => \x7b",
    "    if (typeof callback !== 'function') \x7b",
    "        throw new TypeError('The \"callback\" argument must be of type function');",
    "    \x7d",
    "    Promise.resolve().then(callback);",
    "\x7d);",
    "",
    "defineGlobal('tjs', Object.freeze(\x7b",
    "    version: core.version ?? '0.1.0',",
    "    args: core.args ?? [],",
    "    env: core.env ?? \x7b\x7d,",
    "\x7d));",
    ""]

def librarySource : String :=
  "\n".intercalate [
    "// Standard library available as `@tjs/std`.",
    "",
    "const \x7b args, env \x7d = globalThis.tjs ?? \x7b args: [], env: \x7b\x7d \x7d;",
    "",
    "export \x7b args, env \x7d;",
    "",
    "export function getenv(name) \x7b",
    "    return Object.prototype.hasOwnProperty.call(env, name) ? env[name] : undefined;",
    "\x7d",
    "",
    "export function basename(path) \x7b",
    "    const idx = path.lastIndexOf('/');",
    "    return idx === -1 ? path : path.slice(idx + 1);",
    "\x7d",
    "",
    "export function dirname(path) \x7b",
    "    const idx = path.lastIndexOf('/');",
    "    if (idx === -1) \x7b",
    "        return '.';",
    "    \x7d",
    "    return idx === 0 ? '/' : path.slice(0, idx);",
    "\x7d",
    "",
    "export function join(...parts) \x7b",
    "    return parts.filter(Boolean).join('/').replace(/\\/+/g, '/');",
    "\x7d",
    "",
    "export const sep = '/';",
    "",
    "export default \x7b args, env, getenv, basename, dirname, join, sep \x7d;",
    ""]

end Esm.Startup
