/-
The script that plays a show.

It lists the flows of the narration, shows one at a time with its picture, and puts
the flow's animations into the picture while it is shown.
-/
import SvgDeck.Text.Basic

namespace SvgDeck

/-- The script that all pages share. -/
def player : Text :=
  Text.ofLines
   ["(function () \x7b",
    "  var flows = [];",
    "  NARRATION.sections.forEach(function (section) \x7b",
    "    section.flows.forEach(function (f) \x7b flows.push(f); \x7d);",
    "    (section.subsections || []).forEach(function (sub) \x7b",
    "      sub.flows.forEach(function (f) \x7b flows.push(f); \x7d);",
    "    \x7d);",
    "  \x7d);",
    "",
    "  var textPane = document.getElementById(\"text-pane\");",
    "  flows.forEach(function (flow, i) \x7b",
    "    var el = document.createElement(\"div\");",
    "    el.className = \"flow\";",
    "    el.id = \"text-\" + flow.id;",
    "    el.innerHTML = flow.html;",
    "    el.style.transition = \"font-size \" + flow.seconds + \"s, opacity \" + flow.seconds + \"s\";",
    "    el.addEventListener(\"click\", function () \x7b show(i); \x7d);",
    "    textPane.appendChild(el);",
    "  \x7d);",
    "",
    "  var current = -1;",
    "  var injected = [];",
    "",
    "  function rootOf(id) \x7b return id.slice(0, id.lastIndexOf(\"__\")); \x7d",
    "",
    "  function inject(svg, markup) \x7b",
    "    var before = svg.childNodes.length;",
    "    svg.insertAdjacentHTML(\"beforeend\", markup);",
    "    injected = injected.concat(Array.prototype.slice.call(svg.childNodes, before));",
    "  \x7d",
    "",
    "  function show(i) \x7b",
    "    if (i < 0 || i >= flows.length) return;",
    "    current = i;",
    "    var flow = flows[i];",
    "    injected.forEach(function (n) \x7b n.remove(); \x7d);",
    "    injected = [];",
    "    document.querySelectorAll(\".flow.active, .flow-svg.active\").forEach(function (el) \x7b",
    "      el.classList.remove(\"active\");",
    "    \x7d);",
    "    var text = document.getElementById(\"text-\" + flow.id);",
    "    text.classList.add(\"active\");",
    "    text.scrollIntoView(\x7b behavior: \"smooth\", block: \"center\" \x7d);",
    "    var pane = document.getElementById(rootOf(flow.id));",
    "    pane.classList.add(\"active\");",
    "    var svg = pane.querySelector(\"svg\");",
    "    var compiled = ANIMATIONS[flow.id] || \x7b\x7d;",
    "    if (compiled.focus) inject(svg, compiled.focus);",
    "    if (compiled.highlight) inject(svg, compiled.highlight);",
    "    if (svg.setCurrentTime) svg.setCurrentTime(0);",
    "  \x7d",
    "",
    "  document.addEventListener(\"keydown\", function (e) \x7b",
    "    if (e.key === \"ArrowRight\" || e.key === \"ArrowDown\" || e.key === \" \") show(current + 1);",
    "    if (e.key === \"ArrowLeft\" || e.key === \"ArrowUp\") show(current - 1);",
    "  \x7d);",
    "  show(0);",
    "\x7d)();"]

end SvgDeck
